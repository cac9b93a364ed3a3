import OpenMux.Lib.Dict
import OpenMux.Lib.PyText
import OpenMux.Lib.Run

/-!
# The ports of the serial adapter

The ports of an adapter with the devices that they name, the supervisors and what they say when they are offline. A step is what runs
between two waits: an operation waits while a port is stopped, and the supervisors go on meanwhile. Two operations do not overlap, and a
port is created under a name that is not in use, as a reload does it.
-/

namespace OpenMux.Serial

open Py

variable {α : Type}

inductive PortState
  | configured
  | creating
  | active
  | degraded
  | destroying
  | destroyed
deriving DecidableEq

/-- The configuration of a port without its name. -/
structure Entry (α : Type) where
  device : Text
  settings : α
deriving DecidableEq

/-- What the constructor of a port accepts, and when `_reconcile_common` finds the material settings of a port and an entry equal. -/
structure Settings (α : Type) where
  accepts : Entry α → Bool
  same : α → α → Bool

/-- The reasons for which a port is offline. -/
inductive Offline
  | notFound
  | notInstalled
  | failedToOpen (e : Text)
  | disconnected
  | readError (e : Text)

def Offline.text (device : Text) : Offline → Text
  | .notFound => "Serial device ".toList ++ device ++ " not found".toList
  | .notInstalled => "pyserial-asyncio not installed".toList
  | .failedToOpen e => "Failed to open ".toList ++ device ++ ": ".toList ++ e
  | .disconnected => "Disconnected from ".toList ++ device
  | .readError e => "Read error on ".toList ++ device ++ ": ".toList ++ e

structure SerialPort (α : Type) where
  entry : Entry α
  state : PortState := .configured
  statusMessage : Text := []
  isConnected : Bool := false
  /-- The tasks of `_connect_loop` that have not ended. -/
  supervisors : ℕ := 0
  /-- The last attempt or connection ended with an error since the port last connected. -/
  failed : Bool := false
deriving DecidableEq

namespace SerialPort

def device (p : SerialPort α) : Text := p.entry.device

/-- `start`; it does not look at a supervisor that runs. -/
def start (p : SerialPort α) : SerialPort α :=
  if p.isConnected then p
  else if p.statusMessage ≠ [] then { p with state := .degraded }
  else { p with supervisors := p.supervisors + 1, state := .active }

/-- `resume_if_idle`. -/
def resumeIfIdle (p : SerialPort α) : SerialPort α :=
  if p.isConnected then p
  else if 0 < p.supervisors then p
  else { p with supervisors := 1, state := .active }

/-- A supervisor or a connection of the port is there. -/
def Live (p : SerialPort α) : Prop := 0 < p.supervisors ∨ p.isConnected = true

instance (p : SerialPort α) : Decidable p.Live := inferInstanceAs (Decidable (_ ∨ _))

end SerialPort

/-- The text of a port whose device another one uses. -/
def duplicateText (device holder : Text) : Text :=
  "device ".toList ++ device ++ " is already used by port '".toList ++ holder ++
    "'. A serial device can be used by only one port".toList

/-- `claimed[device]`: the first port that names the device. -/
def holder (ports : Dict Text (SerialPort α)) (device : Text) : Option Text :=
  (ports.entries.find? fun e => e.2.device = device).map Prod.fst

/-- Another port that names the device comes first. -/
def Flagged (ports : Dict Text (SerialPort α)) (name : Text) (p : SerialPort α) : Prop := holder ports p.device ≠ some name

instance (ports : Dict Text (SerialPort α)) (name : Text) (p : SerialPort α) : Decidable (Flagged ports name p) :=
  inferInstanceAs (Decidable (_ ≠ _))

/-- `_recompute_duplicate_device_flags` of one port. -/
def reflag (holder : Option Text) (name : Text) (p : SerialPort α) : SerialPort α :=
  if holder = some name then
    if p.statusMessage ≠ [] then { p with statusMessage := [] }.resumeIfIdle else p
  else { p with statusMessage := duplicateText p.device (holder.getD []), state := .degraded }

/-- `_recompute_duplicate_device_flags`. -/
def recompute (ports : Dict Text (SerialPort α)) : Dict Text (SerialPort α) :=
  ports.mapValues fun name p => reflag (holder ports p.device) name p

structure SerialAdapter (α : Type) where
  serialPorts : Dict Text (SerialPort α) := ∅
  isRunning : Bool := false
  /-- What an operation has still to destroy and to create. -/
  destroying : List Text := []
  creating : List (Text × Entry α) := []
  /-- The first of `destroying` is in its `stop`. -/
  stopping : Bool := false
deriving DecidableEq

/-- What happens: an operation is called; the one in progress goes on; a supervisor connects, fails to, and loses its connection, with an
error or without one. -/
inductive AdapterAct (α : Type)
  | start
  | create (name : Text) (entry : Entry α)
  | destroy (name : Text)
  | reconcile (entries : List (Text × Entry α))
  | advance
  | connects (name : Text)
  | fails (name : Text) (why : Offline)
  | drops (name : Text) (why : Offline)
  | ends (name : Text)

namespace SerialAdapter

/-- `_parse_port_configs`. -/
def configured (cfg : Settings α) (entries : List (Text × Entry α)) : SerialAdapter α where
  serialPorts := recompute (entries.foldl
    (fun ports e => if e.1 ≠ [] ∧ cfg.accepts e.2 then ports.set e.1 { entry := e.2 } else ports) ∅)

/-- No operation is in progress. -/
def Idle (s : SerialAdapter α) : Prop := s.destroying = [] ∧ s.creating = []

instance (s : SerialAdapter α) : Decidable s.Idle := inferInstanceAs (Decidable (_ ∧ _))

/-- `_do_start`. -/
def doStart (s : SerialAdapter α) : SerialAdapter α :=
  if s.isRunning then s
  else { s with serialPorts := s.serialPorts.mapValues fun _ p => p.start, isRunning := true }

/-- `create_port`. -/
def createPort (cfg : Settings α) (s : SerialAdapter α) (name : Text) (entry : Entry α) : SerialAdapter α :=
  if name ≠ [] ∧ cfg.accepts entry then
    let ports := recompute (s.serialPorts.set name { entry := entry })
    { s with serialPorts := ports.mapValues fun n p => if n = name then p.start else p }
  else s

/-- `destroy_port` up to the waits of `stop`. -/
def beginStop (s : SerialAdapter α) (name : Text) : SerialAdapter α :=
  { s with
    serialPorts := s.serialPorts.mapValues fun n p => if n = name then { p with state := .destroying, supervisors := 0 } else p
    stopping := true }

/-- The end of `destroy_port`. -/
def finishStop (s : SerialAdapter α) (name : Text) : SerialAdapter α :=
  { s with serialPorts := recompute (s.serialPorts.pop name), stopping := false }

/-- `sorted` of names. -/
def sortNames (names : List Text) : List Text := names.insertionSort fun a b => a ≤ b

/-- `new_by_name`. -/
def newByName (entries : List (Text × Entry α)) : Dict Text (Entry α) :=
  entries.foldl (fun d e => if e.1 ≠ [] then d.set e.1 e.2 else d) ∅

/-- The names of a reload: those that go, that come, and whose port is built anew. -/
def removedNames (s : SerialAdapter α) (new : Dict Text (Entry α)) : List Text :=
  sortNames (s.serialPorts.keys.filter fun n => n ∉ new.keys)

def addedNames (s : SerialAdapter α) (new : Dict Text (Entry α)) : List Text :=
  sortNames (new.keys.filter fun n => n ∉ s.serialPorts.keys)

def updatedNames (cfg : Settings α) (s : SerialAdapter α) (new : Dict Text (Entry α)) : List Text :=
  (sortNames (s.serialPorts.keys.filter fun n => n ∈ new.keys)).filter fun n =>
    ! (s.serialPorts.get? n).any fun p => (new.get? n).any fun e => p.device = e.device ∧ cfg.same p.entry.settings e.settings

/-- `reconcile_ports` up to its first wait: an entry that the constructor refuses costs only its own change. -/
def reconcilePorts (cfg : Settings α) (s : SerialAdapter α) (entries : List (Text × Entry α)) : SerialAdapter α :=
  let new := newByName entries
  let accepted (names : List Text) := names.filter fun n => (new.get? n).any cfg.accepts
  let added := accepted (s.addedNames new)
  let updated := accepted (s.updatedNames cfg new)
  { s with
    destroying := s.removedNames new ++ updated
    creating := (added ++ updated).filterMap fun n => (new.get? n).map fun e => (n, e) }

/-- The next piece of the operation in progress. -/
def advance (cfg : Settings α) (s : SerialAdapter α) : Option (SerialAdapter α) :=
  match s.destroying, s.creating with
  | name :: rest, _ =>
      if s.stopping then some { s.finishStop name with destroying := rest }
      else if name ∈ s.serialPorts.keys then some (s.beginStop name)
      else some { s with destroying := rest }
  | [], (name, entry) :: rest => some { s.createPort cfg name entry with creating := rest }
  | [], [] => none

/-- An event of a port. -/
def update (s : SerialAdapter α) (name : Text) (allowed : SerialPort α → Bool) (f : SerialPort α → SerialPort α) :
    Option (SerialAdapter α) :=
  if (s.serialPorts.get? name).any allowed then
    some { s with serialPorts := s.serialPorts.mapValues fun n p => if n = name then f p else p }
  else none

/-- A supervisor makes an attempt, a second one also beside the connection of another. -/
def attempts (p : SerialPort α) : Bool := 0 < p.supervisors && (!p.isConnected || 1 < p.supervisors)

def step (cfg : Settings α) (s : SerialAdapter α) : AdapterAct α → Option (SerialAdapter α)
  | .start => if s.Idle then some s.doStart else none
  | .create name entry => if s.Idle ∧ name ∉ s.serialPorts.keys then some (s.createPort cfg name entry) else none
  | .destroy name => if s.Idle then some { s with destroying := [name].filter (· ∈ s.serialPorts.keys) } else none
  | .reconcile entries => if s.Idle then some (s.reconcilePorts cfg entries) else none
  | .advance => s.advance cfg
  | .connects name => s.update name attempts fun p => { p with isConnected := true, statusMessage := [], failed := false }
  | .fails name why => s.update name attempts fun p => { p with statusMessage := why.text p.device, failed := true }
  | .drops name why => s.update name (·.isConnected) fun p =>
      { p with isConnected := false, statusMessage := why.text p.device, failed := true }
  | .ends name => s.update name (·.isConnected) fun p => { p with isConnected := false }

/-- At most one of the ports that name a device is live; while the adapter runs exactly one of them is not flagged and has a supervisor; and
a port says something exactly if it is flagged or failed. -/
structure Right (s : SerialAdapter α) : Prop where
  exclusive : ∀ n n' p p', s.serialPorts.get? n = some p → s.serialPorts.get? n' = some p' → p.device = p'.device → p.Live → p'.Live →
    n = n'
  supervised : s.isRunning → ∀ device, (∃ n p, s.serialPorts.get? n = some p ∧ p.device = device) →
    ∃! n, ∃ p, s.serialPorts.get? n = some p ∧ p.device = device ∧ ¬ Flagged s.serialPorts n p ∧ 0 < p.supervisors
  reason : ∀ n p, s.serialPorts.get? n = some p → (p.statusMessage ≠ [] ↔ Flagged s.serialPorts n p ∨ p.failed = true)

/-- No port that is not flagged has failed. -/
def Quiet (ports : Dict Text (SerialPort α)) : Prop := ∀ e ∈ ports.entries, ¬ Flagged ports e.1 e.2 → e.2.failed = false

instance (ports : Dict Text (SerialPort α)) : Decidable (Quiet ports) := inferInstanceAs (Decidable (∀ _ ∈ _, _))

/-- Where an operation recomputes the flags for the last time, the ports that are not flagged have connected since their last error. -/
def Clean (cfg : Settings α) (s : SerialAdapter α) : AdapterAct α → Prop
  | .create name entry => name ≠ [] ∧ cfg.accepts entry → Quiet s.serialPorts
  | .advance =>
      match s.destroying, s.creating with
      | [name], [] => s.stopping → Quiet (s.serialPorts.pop name)
      | [], [_] => Quiet s.serialPorts
      | _, _ => True
  | _ => True

end SerialAdapter

end OpenMux.Serial
