import Mathlib
import OpenMux.Lib.Dict
import OpenMux.Lib.PyText
import OpenMux.Lib.Run

/-!
# The heartbeat of the links

The heartbeat loop of a node, and what else happens to its connections meanwhile. The loop suspends while a request is written
and between two passes. A connection is closed in one piece, and so is each frame handled.
-/

namespace OpenMux.Heartbeat

open Py

structure HbState where
  lastReqTs : ℚ := 0
  lastAckTs : ℚ := 0
  missed : Nat := 0
  rttMs : Option ℤ := none
deriving DecidableEq

inductive Writer
  | missing
  | closing
  | ready
deriving DecidableEq

structure Connection where
  writer : Writer := .ready
  authenticated : Bool
  lastSeen : ℚ
deriving DecidableEq

/-- The times that the multipath group keeps of a path. -/
structure PathSeen where
  lastSeen : ℚ
  lastRxSeen : ℚ
deriving DecidableEq

structure Faults where
  frozen : Bool := false
  dropHeartbeats : Bool := false
deriving DecidableEq

/-- What the text of a control frame begins with. -/
inductive Command
  | req
  | ack
  | other
deriving DecidableEq

inductive Frame
  | control (text : Command)
  | heartbeat (text : Command)
  | data
  | openStream
  | closeStream
  | ack
deriving DecidableEq

/-- Where the loop is: asleep until a time, or in the pass of a time with connections left. -/
inductive Loop
  | asleep (wake : ℚ)
  | visiting (now : ℚ) (rest : List Text)
  | sending (now : ℚ) (cid : Text) (rest : List Text)
deriving DecidableEq

/-- The loop is only started for a positive interval. -/
structure Adapter where
  heartbeatInterval : ℚ
  interval_pos : 0 < heartbeatInterval
  connections : Dict Text Connection := ∅
  hbState : Dict Text HbState := ∅
  faultState : Dict Text Faults := ∅
  paths : Dict Text PathSeen := ∅
  loop : Loop
deriving DecidableEq

inductive Act
  | tick (now : ℚ)
  /-- The loop takes the next connection of its pass. -/
  | visit
  /-- The request of the loop is written. -/
  | sent
  | sendFailed
  | receive (cid : Text) (frame : Frame) (now : ℚ)
  | freezeConnection (cid : Text)
  | unfreezeConnection (cid : Text) (now : ℚ)
  | setDropHeartbeats (cid : Text) (drop : Bool)
  | connect (cid : Text) (authenticated : Bool) (now : ℚ)
  | authenticate (cid : Text)
  | registerPath (cid : Text) (now : ℚ)
  | unregisterPath (cid : Text)
  /-- The transport begins to close. -/
  | shut (cid : Text)
  | closeConnection (cid : Text)
deriving DecidableEq

/-- The connection that an act outside the loop is about. -/
def Act.cid? : Act → Option Text
  | tick _ | visit | sent | sendFailed => none
  | receive cid _ _ | freezeConnection cid | unfreezeConnection cid _ | setDropHeartbeats cid _ | connect cid _ _ |
    authenticate cid | registerPath cid _ | unregisterPath cid | shut cid | closeConnection cid => some cid

def Act.isTick : Act → Bool
  | tick _ => true
  | _ => false

namespace Adapter

variable (a : Adapter) (cid : Text) (now : ℚ)

def frozen : Bool := (a.faultState.get? cid).any (·.frozen)

def dropHeartbeats : Bool := (a.faultState.get? cid).any (·.dropHeartbeats)

def closeConnection : Adapter :=
  { a with connections := a.connections.pop cid, hbState := a.hbState.pop cid, paths := a.paths.pop cid }

/-! ## The loop -/

/-- `_hb_state_for`. -/
def hbStateFor : HbState := (a.hbState.get? cid).getD {}

/-- The last request is more than 2.5 intervals old. -/
def overdue (st : HbState) : Bool := a.heartbeatInterval * (5 / 2) < now - st.lastReqTs

/-- `_hb_frozen_step`. -/
def hbFrozenStep : Adapter :=
  let st := a.hbStateFor cid
  if st.lastReqTs ≠ 0 ∧ a.overdue now st then
    let a := { a with hbState := a.hbState.set cid { st with missed := st.missed + 1 } }
    if 3 ≤ st.missed + 1 then a.closeConnection cid else a
  else { a with hbState := a.hbState.set cid st }

/-- `_hb_drop_step`. -/
def hbDropStep : Adapter :=
  let st := a.hbStateFor cid
  let missed := if st.lastReqTs ≠ 0 ∧ a.overdue now st then st.missed + 1 else st.missed
  { a with hbState := a.hbState.set cid { st with missed := missed } }

/-- `_hb_send_step` up to the request. -/
def hbSendStep (rest : List Text) : Adapter :=
  if (a.connections.get? cid).any (·.writer = .ready) then
    { a with hbState := a.hbState.set cid { a.hbStateFor cid with lastReqTs := now }, loop := .sending now cid rest }
  else { a with loop := .visiting now rest }

/-- `_hb_check_timeout`. -/
def hbCheckTimeout : Adapter :=
  match a.hbState.get? cid with
  | none => a
  | some st =>
      if st.lastAckTs < st.lastReqTs ∧ a.overdue now st then
        let a := { a with hbState := a.hbState.set cid { st with missed := st.missed + 1 } }
        if 3 ≤ st.missed + 1 then a.closeConnection cid else a
      else a

/-- The record of the connection and its entry in the group change, where they exist. -/
def see (f : Connection → Connection) (g : PathSeen → PathSeen) : Adapter :=
  match a.connections.get? cid with
  | none => a
  | some conn =>
      { a with
        connections := a.connections.set cid (f conn)
        paths := match a.paths.get? cid with
          | none => a.paths
          | some path => a.paths.set cid (g path) }

/-- `_hb_bump_last_seen`. -/
def hbBumpLastSeen : Adapter := a.see cid ({ · with lastSeen := now }) ({ · with lastSeen := now })

def visit : Option Adapter :=
  match a.loop with
  | .visiting now [] => some { a with loop := .asleep (now + a.heartbeatInterval) }
  | .visiting now (cid :: rest) =>
      if a.frozen cid then some { a.hbFrozenStep cid now with loop := .visiting now rest }
      else if a.dropHeartbeats cid then some { a.hbDropStep cid now with loop := .visiting now rest }
      else some (a.hbSendStep cid now rest)
  | _ => none

/-- The rest of `_hb_send_step`; a request that cannot be written leaves it at once. -/
def sent (written : Bool) : Option Adapter :=
  match a.loop with
  | .sending now cid rest =>
      let a := if written then (a.hbCheckTimeout cid now).hbBumpLastSeen cid now else a
      some { a with loop := .visiting now rest }
  | _ => none

/-- `_heartbeat_tick`. -/
def tick : Option Adapter :=
  match a.loop with
  | .asleep wake =>
      if wake ≤ now then
        if a.connections.keys = [] then some { a with loop := .asleep (now + a.heartbeatInterval) }
        else some { a with loop := .visiting now a.connections.keys }
      else none
  | _ => none

/-! ## Frames of the peer -/

/-- What every frame that counts as activity does. -/
def touch : Adapter := a.see cid ({ · with lastSeen := now }) fun _ => ⟨now, now⟩

def isConnAuthenticated : Bool := (a.connections.get? cid).any (·.authenticated)

/-- `_ctl_hb_ack` before it marks activity. -/
def noteAck : Adapter :=
  let st := a.hbStateFor cid
  let rttMs := if st.lastReqTs ≠ 0 then some (max 0 ⌊(now - st.lastReqTs) * 1000⌋) else st.rttMs
  { a with hbState := a.hbState.set cid { st with lastAckTs := now, rttMs := rttMs, missed := 0 } }

def processControlCommand : Command → Adapter
  | .req => if a.isConnAuthenticated cid then a.touch cid now else a
  | .ack => if a.isConnAuthenticated cid then (a.noteAck cid now).touch cid now else a
  | .other => a

def receive : Frame → Adapter
  | .control text | .heartbeat text => (a.touch cid now).processControlCommand cid now text
  | .data | .openStream | .closeStream => if a.isConnAuthenticated cid then a.touch cid now else a
  | .ack => a

/-! ## Injected faults -/

def faults : Faults := (a.faultState.get? cid).getD {}

def freezeConnection : Adapter :=
  if (a.connections.get? cid).isSome then
    let a := { a with faultState := a.faultState.set cid { a.faults cid with frozen := true } }
    let a := a.see cid ({ · with lastSeen := 0 }) ({ · with lastSeen := 0 })
    match a.hbState.get? cid with
    | none => a
    | some hb => { a with hbState := a.hbState.set cid { hb with lastReqTs := hb.lastReqTs - a.heartbeatInterval * 5 } }
  else a

def unfreezeConnection : Adapter :=
  if (a.connections.get? cid).isSome ∧ a.frozen cid then
    let a := { a with faultState := a.faultState.set cid { a.faults cid with frozen := false } }
    a.see cid ({ · with lastSeen := now }) ({ · with lastSeen := now })
  else a

def setDropHeartbeats (drop : Bool) : Adapter :=
  if (a.connections.get? cid).isSome then
    { a with faultState := a.faultState.set cid { a.faults cid with dropHeartbeats := drop } }
  else a

/-! ## Runs -/

def step (a : Adapter) : Act → Option Adapter
  | .tick now => a.tick now
  | .visit => a.visit
  | .sent => a.sent true
  | .sendFailed => a.sent false
  | .receive cid frame now => some (a.receive cid now frame)
  | .freezeConnection cid => some (a.freezeConnection cid)
  | .unfreezeConnection cid now => some (a.unfreezeConnection cid now)
  | .setDropHeartbeats cid drop => some (a.setDropHeartbeats cid drop)
  | .connect cid authenticated now =>
      some { a with connections := a.connections.set cid { authenticated := authenticated, lastSeen := now } }
  | .authenticate cid => some (a.see cid ({ · with authenticated := true }) id)
  | .registerPath cid now => some { a with paths := a.paths.set cid ⟨now, now⟩ }
  | .unregisterPath cid => some { a with paths := a.paths.pop cid }
  | .shut cid => some (a.see cid ({ · with writer := .closing }) id)
  | .closeConnection cid => some (a.closeConnection cid)

/-- The node after the first half second. -/
def start (interval : ℚ) (h : 0 < interval) (now : ℚ) : Adapter where
  heartbeatInterval := interval
  interval_pos := h
  loop := .asleep now

/-! ## Detection -/

/-- The loop is between two passes, the connection is open and no fault is injected into it. -/
structure Untroubled : Prop where
  asleep : ∃ wake, a.loop = .asleep wake
  connected : (a.connections.get? cid).any (·.writer = .ready)
  notFrozen : a.frozen cid = false
  notDropping : a.dropHeartbeats cid = false

/-- A run in which nothing comes from the peer and nothing but the loop touches the connection. -/
def SilentRun (as : List Act) (b : Adapter) : Prop :=
  Transition.exec step a as = some b ∧ ∀ act ∈ as, act.cid? ≠ some cid

/-- After some number of ticks of a silent run the connection is closed. -/
def DetectsSilence : Prop :=
  ∃ n, ∀ as b, a.SilentRun cid as b → n ≤ as.countP Act.isTick → b.connections.get? cid = none

/-- No silent run of three times 2.5 intervals leaves the connection open. -/
def DetectsInTime : Prop :=
  ∀ as b wake wake', a.SilentRun cid as b → a.loop = .asleep wake → b.loop = .asleep wake' →
    wake + 3 * (a.heartbeatInterval * (5 / 2)) ≤ wake' → b.connections.get? cid = none

/-- No silent run advances `last_seen` of the connection. -/
def SeesPeerOnly : Prop :=
  ∀ as b conn conn', a.SilentRun cid as b → a.connections.get? cid = some conn → b.connections.get? cid = some conn' →
    conn'.lastSeen ≤ conn.lastSeen

/-- No silent run advances `last_seen` of the path in its multipath group. -/
def SeesPeerOnPathOnly : Prop :=
  ∀ as b path path', a.SilentRun cid as b → a.paths.get? cid = some path → b.paths.get? cid = some path' →
    path'.lastSeen ≤ path.lastSeen

end Adapter

end OpenMux.Heartbeat
