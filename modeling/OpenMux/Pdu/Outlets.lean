import Mathlib
import OpenMux.Federation.Proxy
import OpenMux.Lib.PyValue

/-!
# The outlets of a node and the ports that they feed

The state of the power adapter and what it says of the power of a port: before a switch, with the change, in the port's own
payload and in the log of the port. A PDU is an object of the heap, and `pdus` says which object a name stands for.
-/

namespace OpenMux.Pdu

open Py Federation

/-- `OutletReading`. -/
structure OutletReading where
  on : Option Bool := none
  watts : Option ℚ := none
  amps : Option ℚ := none
  volts : Option ℚ := none
  error : Text := []
deriving DecidableEq

/-- What of a PDU entry makes it another device. -/
structure Material where
  driver : Text
  pollInterval : ℚ
  options : Tree
  outlets : Tree

/-- `PduState`, without its labels and the driver. -/
structure PduState where
  name : Text
  material : Material
  online : Option Bool := none
  readings : Dict Text OutletReading := ∅
  task : Option Nat := none

/-- The part of a proxy that power is read from. -/
structure FedSide where
  originServer : Text
  remotePortName : Text
  feedStates : Dict Text (Option Bool) := ∅

/-- An entry of the port registry. -/
structure ConsolePort where
  power : List Text := []
  description : Text := []
  /-- The proxy's part, for a port of another node. -/
  remote : Option FedSide := none

/-- `power_outlet_changed` as a port is told it. -/
structure MetaEvent where
  port : Text
  outlet : Text
  on : Option Bool
  allPowerLost : Bool
  otherOutletsOn : List Text
deriving DecidableEq

/-- A change as the listeners of the adapter are told it. -/
structure Change where
  ref : Text
  on : Option Bool
  affected : List Text
deriving DecidableEq

/-- `power_control_notice` in the data log of a port. -/
structure ControlNotice where
  port : Text
  outlet : Text
  on : Bool
  text : Text
  user : Text
  clientId : Option Text
deriving DecidableEq

/-- The adapter. `heap` has an object for every id below `fresh`. -/
structure Adapter where
  enabled : Bool
  isRunning : Bool := false
  pdus : Dict Text Nat := ∅
  heap : Nat → PduState
  fresh : Nat := 0
  ports : Dict Text ConsolePort := ∅
  metaEvents : List MetaEvent := []
  changes : List Change := []
  notices : List ControlNotice := []
  log : List Text := []

/-- `_parse_ref`; `none` where it raises. -/
def parseRef (ref : Text) : Option (Text × Text) :=
  if (splitRemoteRef ref).isSome then none
  else match split '.' 1 ref with
    | [pduName, outletId] =>
        if outletId.contains '.' || !validRefToken pduName || !validRefToken outletId then none
        else some (pduName, outletId)
    | _ => none

/-- `f"{pdu_name}.{outlet_id}"`. -/
def outletRef (pduName outletId : Text) : Text := pduName ++ '.' :: outletId

namespace Adapter

variable (s : Adapter)

/-! ## The map from ports to outlets -/

/-- `port_power_map`. -/
def portPowerMap (portName : Text) : List Text :=
  match s.ports.get? portName with
  | some p => p.power
  | none => []

/-- `_mapped_ports_for_ref`. -/
def mappedPortsForRef (ref : Text) : List Text := (s.ports.entries.filter fun e => ref ∈ e.2.power).map Prod.fst

def isRemotePort (portName : Text) : Bool := (s.ports.get? portName).any (·.remote.isSome)

/-- `_remote_feed_states` at one ref. -/
def remoteFeedState (portName ref : Text) : Option Bool :=
  ((s.ports.get? portName).bind (·.remote)).bind fun r => (r.feedStates.get? ref).join

/-- `_port_description`. -/
def portDescription (portName : Text) : Text :=
  match s.ports.get? portName with
  | none => []
  | some p =>
      match p.remote with
      | some r =>
          if r.originServer = [] then p.description
          else r.originServer ++ ':' :: ':' :: if r.remotePortName = [] then portName else r.remotePortName
      | none => p.description

/-! ## Readings -/

/-- The reading that a ref stands for. -/
def readingOf (ref : Text) : Option OutletReading := do
  let (pduName, outletId) ← parseRef ref
  let id ← s.pdus.get? pduName
  (s.heap id).readings.get? outletId

/-- `_outlet_on_state`. -/
def outletOnState (ref : Text) : Option Bool := (s.readingOf ref).bind (·.on)

/-- `_feed_on_watts`. -/
def feedOnWatts (portName ref : Text) : Option Bool × Option ℚ :=
  if s.isRemotePort portName then (s.remoteFeedState portName ref, none)
  else (s.outletOnState ref, (s.readingOf ref).bind (·.watts))

def setObj (id : Nat) (p : PduState) : Adapter := { s with heap := fun i => if i = id then p else s.heap i }

/-- `state.readings[outlet_id] = reading`. -/
def store (id : Nat) (outletId : Text) (reading : OutletReading) : Adapter :=
  s.setObj id { s.heap id with readings := (s.heap id).readings.set outletId reading }

/-! ## Before a switch -/

/-- An entry of the preview. Only a console that stays up has `via`. -/
structure ImpactEntry where
  port : Text
  description : Text
  via : List Text
deriving DecidableEq

structure Impact where
  losingPower : List ImpactEntry := []
  stayingUp : List ImpactEntry := []
deriving DecidableEq

/-- The other feeds of a port that read on here. -/
def liveFeeds (refs : List Text) (ref : Text) : List Text :=
  (refs.filter fun r => decide (r ≠ ref)).filter fun r => decide (s.outletOnState r = some true)

/-- The refs of a port that `compute_off_impact` looks at. -/
def impactRefs (localRef : Bool) (refs : List Text) : List Text :=
  if localRef then refs.filter fun r => (splitRemoteRef r).isNone else refs

/-- `compute_off_impact`. -/
def computeOffImpact (ref : Text) (localRef : Bool) : Impact :=
  let declaring := s.ports.entries.filter fun e => ref ∈ impactRefs localRef e.2.power
  let via (e : Text × ConsolePort) := s.liveFeeds (impactRefs localRef e.2.power) ref
  { losingPower := (declaring.filter fun e => via e = []).map fun e => ⟨e.1, s.portDescription e.1, []⟩
    stayingUp := (declaring.filter fun e => via e ≠ []).map fun e => ⟨e.1, s.portDescription e.1, via e⟩ }

/-! ## With the change -/

/-- What `_emit_outlet_change` tells one port. -/
def metaEventFor (ref : Text) (on : Option Bool) (portName : Text) : MetaEvent :=
  let onOthers := s.liveFeeds (s.portPowerMap portName) ref
  { port := portName, outlet := ref, on := on, allPowerLost := on ≠ some true && onOthers = [], otherOutletsOn := onOthers }

/-- `_emit_outlet_change`. -/
def emitOutletChange (pduName outletId : Text) (on : Option Bool) : Adapter :=
  let ref := outletRef pduName outletId
  let affected := s.mappedPortsForRef ref
  { s with
    metaEvents := s.metaEvents ++ affected.map (s.metaEventFor ref on)
    changes := s.changes ++ [⟨ref, on, affected⟩] }

/-! ## In the payload of the port -/

inductive Supply
  | all
  | some
  | none
  | unknown
deriving DecidableEq

structure FeedEntry where
  ref : Text
  on : Option Bool
  watts : Option ℚ
deriving DecidableEq

structure PowerPayload where
  feeds : List FeedEntry
  feedsOn : Nat
  feedsTotal : Nat
  state : Supply
  allPowerLost : Bool
deriving DecidableEq

/-- `port_power_payload`. -/
def portPowerPayload (portName : Text) : Option PowerPayload :=
  match s.portPowerMap portName with
  | [] => none
  | feeds =>
      let out := feeds.map fun ref => (⟨ref, (s.feedOnWatts portName ref).1, (s.feedOnWatts portName ref).2⟩ : FeedEntry)
      let feedsOn := (out.filter fun f => f.on = some true).length
      let known := (out.filter fun f => f.on.isSome).length
      let state : Supply :=
        if known = 0 then .unknown else if feedsOn = feeds.length then .all else if feedsOn = 0 then .none else .some
      some { feeds := out, feedsOn := feedsOn, feedsTotal := feeds.length, state := state, allPowerLost := state = Supply.none }

/-! ## In the log -/

/-- `_control_notice_text` of a switch. -/
def controlNoticeText (ref : Text) (on : Bool) : Text :=
  "[POWER] feed ".toList ++ ref ++ (if on then " is now on" else " is now off").toList

/-- `_control_all_lost_notice_text`. -/
def controlAllLostNoticeText : Text := "[POWER WARNING] all power feeds to this console are now off".toList

/-- The line of `_audit_control` in the server log. -/
def controlLine (ref : Text) (on : Bool) (user clientId : Option Text) (impact : Impact) : Text :=
  let names (es : List ImpactEntry) := (es.map (·.port)).filter (· ≠ [])
  let who := match user with
    | some u => if u = [] then "unknown".toList else u
    | none => "unknown".toList
  let parts := ["POWER CONTROL: user ".toList ++ who ++ " turned ".toList ++ ref ++ (if on then " on" else " off").toList]
  let parts := if names impact.losingPower = [] then parts
    else parts ++ ["losing all power: ".toList ++ ", ".toList.intercalate (names impact.losingPower)]
  let parts := if names impact.stayingUp = [] then parts
    else parts ++ ["staying up: ".toList ++ ", ".toList.intercalate (names impact.stayingUp)]
  let parts := match clientId with
    | some c => if c = [] then parts else parts ++ ["client ".toList ++ c]
    | none => parts
  "; ".toList.intercalate parts

/-- What `_audit_control` writes in the data log of one port. -/
def noticeFor (ref : Text) (on : Bool) (user clientId : Option Text) (portName : Text) : ControlNotice :=
  let otherOutletsOn := s.liveFeeds (s.portPowerMap portName) ref
  { port := portName, outlet := ref, on := on
    text := if on = false && otherOutletsOn = [] then controlAllLostNoticeText else controlNoticeText ref on
    user := match user with
      | some u => if u = [] then "unknown".toList else u
      | none => "unknown".toList
    clientId := clientId }

/-- `_audit_control`. -/
def auditControl (ref : Text) (on : Bool) (user clientId : Option Text) (impact : Impact) : Adapter :=
  { s with
    log := s.log ++ [controlLine ref on user clientId impact]
    notices := s.notices ++ (s.mappedPortsForRef ref).map (s.noticeFor ref on user clientId) }

/-! ## Switches and reads -/

/-- A reading that follows one with an error loses its own. -/
def clearError (prev : Option OutletReading) (reading : OutletReading) : OutletReading :=
  match prev with
  | some p => if p.error = [] then reading else { reading with error := [] }
  | none => reading

/-- `set_outlet` from the return of the driver on, for a driver that reports no error. -/
def finishSetOutlet (id : Nat) (pduName outletId ref : Text) (on : Bool) (user clientId : Option Text) (impact : Impact)
    (reading : OutletReading) : Adapter :=
  let prev := (s.heap id).readings.get? outletId
  let s := s.store id outletId (clearError prev reading)
  let s := if (s.heap id).online = some false then s.setObj id { s.heap id with online := some true } else s
  let s := if prev.map (·.on) ≠ some reading.on then s.emitOutletChange pduName outletId reading.on else s
  s.auditControl ref on user clientId impact

/-- `_apply_readings` before it emits. -/
def mergeReadings (id : Nat) (readings : Dict Text OutletReading) : Adapter :=
  let old := (s.heap id).readings
  s.setObj id { s.heap id with
    online := some true
    readings := (old.update (readings.mapValues fun outletId r => clearError (old.get? outletId) r)).filterKeys fun outletId =>
      (readings.get? outletId).isSome }

/-- The outlets whose state `_apply_readings` found changed. -/
def changedOutlets (id : Nat) (readings : Dict Text OutletReading) : List (Text × Option Bool) :=
  (readings.entries.filter fun e => ((s.heap id).readings.get? e.1).map (·.on) ≠ some e.2.on).map fun e => (e.1, e.2.on)

/-- `_apply_readings`. -/
def applyReadings (id : Nat) (readings : Dict Text OutletReading) : Adapter :=
  (s.changedOutlets id readings).foldl (fun t e => t.emitOutletChange (s.heap id).name e.1 e.2) (s.mergeReadings id readings)

/-- What `_mark_pdu_offline` does with one outlet. -/
def markOutletOffline (id : Nat) (error outletId : Text) : Adapter :=
  match (s.heap id).readings.get? outletId with
  | none => s
  | some reading =>
      if reading.on = none then
        s.store id outletId { reading with error := error, watts := none, amps := none, volts := none }
      else
        (s.emitOutletChange (s.heap id).name outletId none).store id outletId { reading with error := error, on := none }

/-- `_mark_pdu_offline`. -/
def markPduOffline (id : Nat) (error : Text) : Adapter :=
  (s.heap id).readings.keys.foldl (fun t outletId => t.markOutletOffline id error outletId)
    (s.setObj id { s.heap id with online := some false })

end Adapter

end OpenMux.Pdu

/-!
## One verdict on lost power

A port may be said to have lost its power in four places. Here is what it means that they agree, and the states of the feeds for
which they do.
-/

namespace OpenMux.Pdu.Adapter

open Py Federation

variable (s : Adapter) (portName ref : Text)

/-- What the node of the port reports of one of its feeds. -/
def feedOn (r : Text) : Option Bool := (s.feedOnWatts portName r).1

/-- Another feed of the port reads on here. -/
def Lit : Prop := ∃ r ∈ s.portPowerMap portName, r ≠ ref ∧ s.outletOnState r = some true

instance : Decidable (s.Lit portName ref) := inferInstanceAs (Decidable (∃ r ∈ _, _))

/-- The node of the outlet reports it as on: this node, or another to a proxy of this one. -/
def ReportedOn : Prop := s.outletOnState ref = some true ∨ ∃ proxy, s.remoteFeedState proxy ref = some true

/-- Another feed of the port is on, as its own node reports it. -/
def OtherOn : Prop := ∃ r ∈ s.portPowerMap portName, r ≠ ref ∧ s.ReportedOn r

/-! ## The verdicts -/

/-- The flag of the payload. -/
def PayloadLost : Prop := (s.portPowerPayload portName).any (·.allPowerLost) = true

/-- The state of the payload. -/
def PayloadNone : Prop := (s.portPowerPayload portName).map (·.state) = some .none

/-- What `t` has told the port of the outlet since `s`. -/
def told (t : Adapter) : List MetaEvent :=
  (t.metaEvents.drop s.metaEvents.length).filter fun e => e.port = portName ∧ e.outlet = ref

/-- What `t` has written of the outlet in the log of the port since `s`. -/
def noted (t : Adapter) : List ControlNotice :=
  (t.notices.drop s.notices.length).filter fun n => n.port = portName ∧ n.outlet = ref

/-- What the port is told of the outlet agrees with its payload afterwards, and it is not said to have lost its power while
another of its feeds is on. -/
structure ToldRightly (t : Adapter) : Prop where
  flag : ∀ e ∈ s.told portName ref t, (e.allPowerLost = true ↔ t.PayloadLost portName)
  state : t.PayloadLost portName ↔ t.PayloadNone portName
  spared : t.OtherOn portName ref → (∀ e ∈ s.told portName ref t, e.allPowerLost = false) ∧ ¬ t.PayloadLost portName

/-- So does what was said before a switch, and what the log of the port says of it. -/
structure OneVerdict (impact : Impact) (t : Adapter) : Prop extends ToldRightly s portName ref t where
  losing : portName ∈ impact.losingPower.map (·.port) ↔ t.PayloadLost portName
  staying : portName ∈ impact.stayingUp.map (·.port) ↔ ¬ t.PayloadLost portName
  warned : ∀ n ∈ s.noted portName ref t, (n.text = controlAllLostNoticeText ↔ t.PayloadLost portName)

/-- The reading changes what is known of the outlet. -/
def Changes (id : Nat) (outletId : Text) (on : Option Bool) : Prop := ((s.heap id).readings.get? outletId).map (·.on) ≠ some on

instance (id : Nat) (outletId : Text) (on : Option Bool) : Decidable (s.Changes id outletId on) :=
  inferInstanceAs (Decidable (_ ≠ _))

/-! ## Feeds that are judged alike -/

/-- Where the outlet is on or another feed reads on here, the node of the port reports a feed as on or knows none; and elsewhere
it knows one, reports none as on, and no other feed is on elsewhere. -/
def Judged (on : Option Bool) : Prop :=
  if on = some true ∨ s.Lit portName ref then
    (∃ r ∈ s.portPowerMap portName, s.feedOn portName r = some true) ∨
      ∀ r ∈ s.portPowerMap portName, s.feedOn portName r = none
  else (∃ r ∈ s.portPowerMap portName, s.feedOn portName r ≠ none) ∧
    (∀ r ∈ s.portPowerMap portName, s.feedOn portName r ≠ some true) ∧ ¬ s.OtherOn portName ref

/-- For a port of this node: the outlet is on, another feed reads on here, or the outlet or another feed is known and no other
is on elsewhere. -/
def LocallyJudged (on : Option Bool) : Prop :=
  on = some true ∨ s.Lit portName ref ∨
    ((on = some false ∨ ∃ r ∈ s.portPowerMap portName, r ≠ ref ∧ s.outletOnState r ≠ none) ∧ ¬ s.OtherOn portName ref)

end OpenMux.Pdu.Adapter
