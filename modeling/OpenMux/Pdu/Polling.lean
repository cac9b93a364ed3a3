import Mathlib
import OpenMux.Lib.Run
import OpenMux.Pdu.Outlets

/-!
# The poll loops of the power adapter

The adapter under `start`, `stop`, `reconcile_ports` and `set_outlet`, with the loop that polls each PDU. A startup and a reconcile
wait for the driver of one PDU at a time, a switch waits for its driver, and a loop sleeps or waits for a read. Everything in
between is one piece. The operations of the adapter do not overlap each other.
-/

namespace OpenMux.Pdu

open Py Federation

/-- Where a poll loop is. A read keeps the outlets that were switched since it began. -/
inductive Phase
  | fresh
  | sleeping
  | reading (switched : List Text)
deriving DecidableEq

/-- A poll loop that has not ended. One that is cancelled only ends. -/
structure PollTask where
  pdu : Nat
  phase : Phase := .fresh
  cancelled : Bool := false
deriving DecidableEq

/-- What comes of `read_states`. -/
inductive ReadResult
  | raised (error : Text)
  | backoff
  | readings (readings : Dict Text OutletReading)

/-- An entry of `pdus`: what the comparison with a running PDU reads of it, `none` where that raises, and whether the driver takes
its options. -/
structure PduConf where
  name : Text
  material : Option Material
  accepted : Bool := true

/-- What a startup or a reconcile has still to do. -/
inductive Todo
  | bring (id : Nat)
  | build (conf : PduConf)

inductive Wait
  | listing
  | reading (switched : List Text)

/-- A startup or a reconcile that waits for the driver of a PDU. A reconcile knows whether power was enabled before. -/
structure Operation where
  oldEnabled : Option Bool
  id : Nat
  wait : Wait
  rest : List Todo

/-- A call of `set_outlet` that waits for the driver. -/
structure Switch where
  id : Nat
  pduName : Text
  outletId : Text
  ref : Text
  on : Bool
  user : Option Text
  clientId : Option Text
  impact : Adapter.Impact

structure Node where
  adapter : Adapter
  tasks : Nat → Option PollTask := fun _ => none
  nextTask : Nat := 0
  operation : Option Operation := none
  switches : List Switch := []

/-- `!=` of two materials, the other way. -/
def Material.eq (m m' : Material) : Bool :=
  m.driver = m'.driver && m.pollInterval = m'.pollInterval && m.options.eq m'.options && m.outlets.eq m'.outlets

namespace Adapter

variable (s : Adapter)

/-- `self.pdus.get(state.name) is state`. -/
def Current (id : Nat) : Prop := s.pdus.get? (s.heap id).name = some id

instance (id : Nat) : Decidable (s.Current id) := inferInstanceAs (Decidable (_ = _))

/-- `self.pdus.values()`. -/
def objects : List Nat := s.pdus.entries.map Prod.snd

/-- `_refresh_readings` once the driver returned. -/
def refreshReadings (id : Nat) : ReadResult → Adapter
  | .raised error => s.markPduOffline id error
  | .backoff => s
  | .readings readings => s.applyReadings id readings

/-- `readings.setdefault(oid, OutletReading())` for the outlets that were found. -/
def discover (id : Nat) (ids : List Text) : Adapter :=
  s.setObj id { s.heap id with
    readings := ids.foldl (fun d o => if (d.get? o).isSome then d else d.set o {}) (s.heap id).readings }

/-- `_remote_origin_for_ref` of a ref without an origin. -/
def ownedElsewhere (ref : Text) : Bool :=
  s.ports.entries.any (fun e => e.2.remote.any (fun r => r.originServer ≠ []) && ref ∈ e.2.power) &&
    !s.ports.entries.any fun e => e.2.remote.isNone && ref ∈ e.2.power

end Adapter

namespace Node

variable (n : Node)

/-! ## Poll tasks -/

def setTask (t : Nat) (k : Option PollTask) : Node := { n with tasks := fun u => if u = t then k else n.tasks u }

/-- `_stop_poll_task` of a PDU. -/
def stopPollTask (id : Nat) : Node :=
  match (n.adapter.heap id).task with
  | none => n
  | some t => { n.setTask t ((n.tasks t).map ({ · with cancelled := true })) with
      adapter := n.adapter.setObj id { n.adapter.heap id with task := none } }

/-- `_start_poll_task`. -/
def startPollTask (id : Nat) : Node :=
  if (n.adapter.heap id).material.pollInterval ≤ 0 ∨ (n.adapter.heap id).task ≠ none then n
  else { n.setTask n.nextTask (some { pdu := id }) with
    nextTask := n.nextTask + 1
    adapter := n.adapter.setObj id { n.adapter.heap id with task := some n.nextTask } }

/-- The condition of the loop. -/
def loopOn (t id : Nat) : Node :=
  n.setTask t (if n.adapter.isRunning ∧ n.adapter.Current id then some ⟨id, .sleeping, false⟩ else none)

/-! ## Startup and reconcile -/

/-- `_build_pdu`. -/
def buildPdu (c : PduConf) : Node :=
  match c.material with
  | none => n
  | some m =>
      if c.accepted && validRefToken c.name then
        let n := match n.adapter.pdus.get? c.name with
          | some id => n.stopPollTask id
          | none => n
        { n with adapter := { n.adapter.setObj n.adapter.fresh { name := c.name, material := m } with
            pdus := n.adapter.pdus.set c.name n.adapter.fresh
            fresh := n.adapter.fresh + 1 } }
      else n

/-- `_reconcile_poll_flip`. -/
def reconcilePollFlip (oldEnabled : Bool) : Node :=
  if n.adapter.enabled && !oldEnabled then
    n.adapter.objects.foldl (fun n id =>
      if (n.adapter.heap id).task = none ∧ (n.adapter.heap id).readings.entries ≠ [] then n.startPollTask id else n) n
  else if !n.adapter.enabled then n.adapter.objects.foldl (fun n id => n.stopPollTask id) n
  else n

/-- The end of a startup or of a reconcile. -/
def finish : Option Bool → Node
  | none => { n with operation := none, adapter := { n.adapter with isRunning := true } }
  | some oldEnabled => { n.reconcilePollFlip oldEnabled with operation := none }

/-- Goes on to the next PDU whose driver has to be waited for. -/
def advance (oldEnabled : Option Bool) : List Todo → Node → Node
  | [], n => n.finish oldEnabled
  | .bring id :: rest, n => { n with operation := some ⟨oldEnabled, id, .listing, rest⟩ }
  | .build c :: rest, n =>
      let n := n.buildPdu c
      match n.adapter.pdus.get? c.name with
      | none => advance oldEnabled rest n
      | some id =>
          if n.adapter.enabled then { n with operation := some ⟨oldEnabled, id, .listing, rest⟩ }
          else advance oldEnabled rest n

/-- `start` over the configured PDUs. -/
def start (pdus : List PduConf) : Node :=
  let n := pdus.foldl buildPdu n
  if n.adapter.enabled then advance none (n.adapter.objects.map .bring) n else n.finish none

/-- `stop`. -/
def stop : Node :=
  let n : Node := { n with adapter := { n.adapter with isRunning := false } }
  let n := n.adapter.objects.foldl (fun n id => n.stopPollTask id) n
  { n with adapter := { n.adapter with pdus := ∅ } }

/-- The entries of a new configuration by name. -/
def newByName (pdus : List PduConf) : Dict Text PduConf :=
  pdus.foldl (fun d c => if validRefToken c.name then d.set c.name c else d) ∅

/-- `sorted` of names. -/
def sortNames (names : List Text) : List Text := names.insertionSort fun a b => a ≤ b

/-- `_reconcile_remove` of one PDU. -/
def reconcileRemove (name : Text) : Node :=
  match n.adapter.pdus.get? name with
  | none => n
  | some id => { n with adapter := { n.adapter with pdus := n.adapter.pdus.pop name } }.stopPollTask id

/-- `_reconcile_common`: a PDU that has to be built again. -/
def updatedBy (c : PduConf) (id : Nat) : Bool := c.material.any fun m => !m.eq (n.adapter.heap id).material

/-- The names of a reconcile: those that go, that come, and whose PDU is built again. -/
def removedNames (conf : Dict Text PduConf) : List Text := sortNames (n.adapter.pdus.keys.filter fun k => k ∉ conf.keys)

def addedNames (conf : Dict Text PduConf) : List Text := sortNames (conf.keys.filter fun k => k ∉ n.adapter.pdus.keys)

def updatedNames (conf : Dict Text PduConf) : List Text :=
  (sortNames (n.adapter.pdus.keys.filter fun k => k ∈ conf.keys)).filter fun k =>
    (conf.get? k).any fun c => (n.adapter.pdus.get? k).any (n.updatedBy c)

/-- `reconcile_ports`. -/
def reconcilePorts (enabled : Bool) (pdus : List PduConf) : Node :=
  let conf := newByName pdus
  let todo := (n.addedNames conf ++ n.updatedNames conf).filterMap fun k => (conf.get? k).map Todo.build
  let removed := n.removedNames conf
  let oldEnabled := n.adapter.enabled
  let n : Node := { n with adapter := { n.adapter with enabled := enabled } }
  advance (some oldEnabled) todo (removed.foldl reconcileRemove n)

/-- A discovery returns. -/
def listed (o : Operation) : Option (List Text) → Node
  | none => advance o.oldEnabled o.rest
      { n with adapter := n.adapter.setObj o.id { n.adapter.heap o.id with online := some false } }
  | some ids => { n with
      adapter := n.adapter.discover o.id ids
      operation := some { o with wait := .reading [] } }

/-- The first read of a PDU returns. -/
def brought (o : Operation) (result : ReadResult) : Node :=
  advance o.oldEnabled o.rest ({ n with adapter := n.adapter.refreshReadings o.id result }.startPollTask o.id)

/-! ## Switches -/

/-- `set_outlet` up to the driver; `none` where it does not get there. -/
def setOutlet (ref : Text) (on : Bool) (user clientId : Option Text) : Option Switch := do
  let (pduName, outletId) ← parseRef ref
  guard (n.adapter.enabled && !n.adapter.ownedElsewhere ref)
  let id ← n.adapter.pdus.get? pduName
  return ⟨id, pduName, outletId, ref, on, user, clientId, if on then {} else n.adapter.computeOffImpact ref true⟩

/-- Reads of a PDU that are in flight see that an outlet was switched. -/
def noteSwitched (id : Nat) (outletId : Text) : Node :=
  { n with
    tasks := fun t => (n.tasks t).map fun k => match k.phase with
      | .reading switched => if k.pdu = id then { k with phase := .reading (outletId :: switched) } else k
      | _ => k
    operation := n.operation.map fun o => match o.wait with
      | .reading switched => if o.id = id then { o with wait := .reading (outletId :: switched) } else o
      | .listing => o }

/-- The driver returns from a switch. -/
def finishSwitch (w : Switch) (reading : OutletReading) : Node :=
  { n with adapter := n.adapter.finishSetOutlet w.id w.pduName w.outletId w.ref w.on w.user w.clientId w.impact reading }.noteSwitched
    w.id w.outletId

/-! ## The system -/

inductive Act
  | start (pdus : List PduConf)
  | stop
  | reconcile (enabled : Bool) (pdus : List PduConf)
  /-- The driver that a startup or a reconcile waits for returns. -/
  | listed (result : Option (List Text))
  | brought (result : ReadResult)
  /-- A poll task runs for the first time. -/
  | begin (t : Nat)
  | wake (t : Nat)
  | polled (t : Nat) (result : ReadResult)
  | unwind (t : Nat)
  | setOutlet (ref : Text) (on : Bool) (user clientId : Option Text)
  /-- The driver of the switch returns, with a reading if there was no error. -/
  | switched (i : Nat) (reading : Option OutletReading)
  /-- The port registry changes. -/
  | register (ports : Dict Text ConsolePort)

def step (n : Node) : Act → Option Node
  | .start pdus => if n.operation.isNone then some (n.start pdus) else none
  | .stop => if n.operation.isNone then some n.stop else none
  | .reconcile enabled pdus => if n.operation.isNone then some (n.reconcilePorts enabled pdus) else none
  | .listed result => match n.operation with
      | some ⟨old, id, .listing, rest⟩ => some (n.listed ⟨old, id, .listing, rest⟩ result)
      | _ => none
  | .brought result => match n.operation with
      | some ⟨old, id, .reading switched, rest⟩ => some (n.brought ⟨old, id, .reading switched, rest⟩ result)
      | _ => none
  | .begin t => match n.tasks t with
      | some ⟨id, .fresh, false⟩ => some (n.loopOn t id)
      | _ => none
  | .wake t => match n.tasks t with
      | some ⟨id, .sleeping, false⟩ => some (n.setTask t (if n.adapter.Current id then some ⟨id, .reading [], false⟩ else none))
      | _ => none
  | .polled t result => match n.tasks t with
      | some ⟨id, .reading _, false⟩ => some ({ n with adapter := n.adapter.refreshReadings id result }.loopOn t id)
      | _ => none
  | .unwind t => match n.tasks t with
      | some ⟨_, _, true⟩ => some (n.setTask t none)
      | _ => none
  | .setOutlet ref on user clientId => (n.setOutlet ref on user clientId).map fun w => { n with switches := n.switches ++ [w] }
  | .switched i reading => match n.switches[i]? with
      | none => none
      | some w =>
          let n : Node := { n with switches := n.switches.eraseIdx i }
          some (match reading with
            | none => n
            | some r => n.finishSwitch w r)
  | .register ports => some { n with adapter := { n.adapter with ports := ports } }

/-- An adapter that was just made. -/
def fresh (enabled : Bool) (ports : Dict Text ConsolePort) : Node where
  adapter := { enabled := enabled, ports := ports, heap := fun _ => ⟨[], ⟨[], 0, .none, .none⟩, none, ∅, none⟩ }

end Node

end OpenMux.Pdu

/-!
## What is asked of the poll loops
-/

namespace OpenMux.Pdu

open Py Federation

/-- An entry that a PDU is built of. -/
def Builds (c : PduConf) : Prop := c.material.isSome ∧ c.accepted = true ∧ validRefToken c.name = true

instance (c : PduConf) : Decidable (Builds c) := inferInstanceAs (Decidable (_ ∧ _ ∧ _))

namespace Node

variable (n : Node)

/-- A loop that has not ended and that nothing has cancelled. -/
def Live (t : Nat) (k : PollTask) : Prop := n.tasks t = some k ∧ k.cancelled = false

/-- The polling interval of a PDU that is in place. -/
def interval (id : Nat) : ℚ := (n.adapter.heap id).material.pollInterval

/-- Every PDU that has to be polled has one loop, and there is no other loop. -/
structure Polled : Prop where
  one : n.adapter.isRunning = true → n.adapter.enabled = true → ∀ id ∈ n.adapter.objects, 0 < n.interval id →
    ∃! t, ∃ k, n.Live t k ∧ k.pdu = id
  other : ∀ t k, n.Live t k → n.adapter.isRunning = true ∧ n.adapter.enabled = true ∧ k.pdu ∈ n.adapter.objects

/-- Neither a PDU nor an entry asks to be polled. -/
def Unpolled (pdus : List PduConf) : Prop :=
  (∀ id ∈ n.adapter.objects, n.interval id ≤ 0) ∧ ∀ c ∈ pdus, ∀ m ∈ c.material, m.pollInterval ≤ 0

/-- A PDU that a reconcile keeps as it is has readings, if it has to be polled. -/
def KeptRead (pdus : List PduConf) : Prop :=
  ∀ id ∈ n.adapter.objects, ∀ c ∈ (newByName pdus).get? (n.adapter.heap id).name,
    n.updatedBy c id = false → n.interval id ≤ 0 ∨ (n.adapter.heap id).readings.entries ≠ []

/-- The steps that leave no PDU without its loop, and no loop where there should be none. A discovery fails only for a PDU that
need not be polled or is; a loop begins, and a reconcile starts one, only once the adapter runs; and a reconcile that enables power
keeps no PDU without readings. -/
def Clean : Act → Prop
  | .listed none => ∀ o ∈ n.operation,
      n.interval o.id ≤ 0 ∨ (n.adapter.heap o.id).task ≠ none ∨ o.oldEnabled.isSome = true ∧ n.adapter.isRunning = false
  | .brought _ => ∀ o ∈ n.operation,
      o.oldEnabled = none ∨ n.adapter.isRunning = true ∨ n.interval o.id ≤ 0 ∨ (n.adapter.heap o.id).task ≠ none
  | .begin _ => n.adapter.isRunning = true
  | .reconcile enabled pdus => enabled = true → n.adapter.enabled = false →
      if n.adapter.isRunning then n.KeptRead pdus else n.Unpolled pdus
  | _ => True

instance (pdus : List PduConf) : Decidable (n.Unpolled pdus) := inferInstanceAs (Decidable (_ ∧ _))

instance (pdus : List PduConf) : Decidable (n.KeptRead pdus) := inferInstanceAs (Decidable (∀ id ∈ _, ∀ c ∈ _, _))

instance : (a : Act) → Decidable (n.Clean a)
  | .listed none => inferInstanceAs (Decidable (∀ o ∈ n.operation, _ ∨ _))
  | .brought _ => inferInstanceAs (Decidable (∀ o ∈ n.operation, _ ∨ _))
  | .begin _ => inferInstanceAs (Decidable (_ = _))
  | .reconcile _ _ => inferInstanceAs (Decidable (_ → _ → ite _ _ _))
  | .start _ | .stop | .listed (some _) | .wake _ | .polled _ _ | .unwind _ | .setOutlet _ _ _ _ | .switched _ _ | .register _ => isTrue trivial

end Node

end OpenMux.Pdu
