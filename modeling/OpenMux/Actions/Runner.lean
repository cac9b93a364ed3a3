import OpenMux.Access.Console
import OpenMux.Lib.Async

/-!
# The action runner

The runs of action scripts on the ports. The task of a run is a coroutine that attaches a client of its own to the port,
runs the script, and cleans up; launches, cancels, closes and take-overs change the state at once. A wait stands for all
the waits of a call of the port manager, of a link or of the console manager: these catch what they raise, and only a cancel
passes through them.
-/

namespace OpenMux.Access

open Py Origin

/-- `get_client_mode`. -/
def Console.getClientMode (s : Console) (clientId name : Text) : Option Mode :=
  (s.ports.get? name).bind fun p => (p.connectedClients.find? (·.clientId = clientId)).map (·.mode)

/-- The `notice_mode` of a row. -/
def Code.noticeMode : Code → Option Mode
  | .demoted | .actionSelfDemoted | .actionRestoreDenied => some .readOnly
  | .actionRestored => some .readWrite
  | _ => none

end OpenMux.Access

namespace OpenMux.Actions

open Py Origin Access

inductive Status
  | running
  | success
  | failed
  | timeout
  | cancelled
deriving DecidableEq

/-- `script` is what the script reports: a line, its progress, a prompt or its close. -/
inductive Event
  | actionStarted
  | script (name : Text)
  | operatorChanged (operatorClientId : Text) (previous : Option Text)
  | actionFinished (status : Status) (error : Option Text)
deriving DecidableEq

/-- The `event` of an event. -/
def Event.name : Event → Text
  | actionStarted => "action_started".toList
  | script name => name
  | operatorChanged _ _ => "operator_changed".toList
  | actionFinished _ _ => "action_finished".toList

/-- The arguments of `launch_run`. -/
structure Launch where
  portName : Text
  actionId : Text
  username : String
  requestingClientId : Option Text := none
  /-- The seconds as they are printed. -/
  timeout : Text := []
deriving DecidableEq

structure ActionRun where
  launch : Launch
  status : Status := .running
  error : Option Text := none
  /-- `closed_at` is set. -/
  closed : Bool := false
  operatorClientId : Option Text := launch.requestingClientId
  autoDemotedClientId : Option Text := none
  events : List Event := []
deriving DecidableEq

/-- What a task may raise, as far as the runner tells it apart. -/
inductive Exn
  | cancelled
  | timeout
  | busy (message : Text)
  | other (kind message : Text)
deriving DecidableEq

/-- How a wait ends. -/
inductive Signal
  | value (result : Bool)
  | raised (e : Exn)
deriving DecidableEq

/-- What a run asks of the port manager, of the link of the port and of the console manager. `add` and `remove` are about the
client of the run itself. -/
inductive Call
  | add
  | remove
  | demote (clientId : Text)
  | promote (clientId : Text)
  /-- `get_client_mode(...) is not None`. -/
  | attached (clientId : Text)
  | release (clientId : Text)
  | request (clientId : Text)
  | tell (clientId : Text) (code : Code)
deriving DecidableEq

/-- A call, and the state that it met. -/
structure CallRecord where
  runId : Text
  call : Call
  before : Console

structure Runner where
  console : Console
  /-- The ports of other nodes, and whether their links are up. -/
  links : Dict Text Bool := ∅
  runs : Dict Text ActionRun := ∅
  activeByPort : Dict Text Text := ∅
  openFinishedByPort : Dict Text Text := ∅
  sessions : List Text := []
  /-- The tasks with a cancel that has not reached them. -/
  cancelling : List Text := []
  /-- What was fed to the prompts of the scripts. -/
  inputs : List (Text × Text) := []
  calls : List CallRecord := []

def actionPrefix : Text := "action:".toList

/-- The `client_id` of a run. -/
def actionClientId (runId : Text) : Text := actionPrefix ++ runId

/-- The change that a call makes, and its result. -/
def Call.apply (runId : Text) (l : Launch) (s : Console) : Call → Console × Bool
  | add => s.addClientToPort l.portName (actionClientId runId) (String.ofList (actionPrefix ++ l.actionId)) .readWrite
  | remove => s.removeClientFromPort l.portName (actionClientId runId)
  | demote c => s.demoteClient l.portName c
  | promote c => s.promoteClient l.portName c
  | attached c => (s, (s.getClientMode c l.portName).isSome)
  | release _ | request _ | tell _ _ => (s, true)

namespace Runner

def updateRun (s : Runner) (runId : Text) (f : ActionRun → ActionRun) : Runner :=
  { s with runs := match s.runs.get? runId with
      | some run => s.runs.set runId (f run)
      | none => s.runs }

/-- `_publish`. -/
def publish (runId : Text) (e : Event) (s : Runner) : Runner :=
  s.updateRun runId fun run => { run with events := run.events ++ [e] }

/-- The status and the error of a run. -/
def setOutcome (runId : Text) (status : Status) (error : Option Text) (s : Runner) : Runner :=
  s.updateRun runId fun run => { run with status := status, error := error }

def perform (runId : Text) (l : Launch) (c : Call) (s : Runner) : Runner × Bool :=
  ({ s with console := (c.apply runId l s.console).1, calls := s.calls ++ [⟨runId, c, s.console⟩] },
    (c.apply runId l s.console).2)

/-- `get_active_run`. -/
def getActiveRun (s : Runner) (name : Text) : Option ActionRun := (s.activeByPort.get? name).bind s.runs.get?

/-- `auto_demoted_client_id`; it is never set to an empty text. -/
def autoDemoted (s : Runner) (runId : Text) : Option Text := (s.runs.get? runId).bind (·.autoDemotedClientId)

/-! ## The task of a run -/

abbrev RunTask := Async Runner Exn Signal

/-- Waits for a call that catches its own exceptions. -/
def guarded : RunTask Bool := .await fun
  | .value result => .ret result
  | .raised .cancelled => .throw .cancelled
  | .raised _ => .ret false

def call (runId : Text) (l : Launch) (c : Call) : RunTask Bool := .lift (perform runId l c)

/-- `add_client_to_port` of the client of the run. A port of another node opens a stream for it. -/
def addActionClient (runId : Text) (l : Launch) : RunTask Bool := do
  let attached ← call runId l .add
  let s ← .get
  if attached && s.links.get? l.portName = some true then
    let _ ← guarded
    return true
  else
    return attached

/-- `remove_client_from_port` of the client of the run. A port of another node closes the stream. -/
def removeActionClient (runId : Text) (l : Launch) : RunTask Unit := do
  let removed ← call runId l .remove
  let s ← .get
  if removed && (s.links.get? l.portName).isSome then
    let _ ← guarded
    return ()
  else
    return ()

/-- `_notify_client_mode`. -/
def notifyClientMode (runId : Text) (l : Launch) (clientId : Text) (code : Code) : RunTask Unit := do
  let _ ← call runId l (.tell clientId code)
  let _ ← guarded
  return ()

/-- `_release_origin_slot`; a port of this node has nothing to release. -/
def releaseOriginSlot (runId : Text) (l : Launch) (federated : Bool) (clientId : Text) : RunTask Unit :=
  if federated then do
    let _ ← call runId l (.release clientId)
    let _ ← guarded
    return ()
  else
    return ()

/-- `_request_origin_grant` of a port of another node. -/
def requestOriginGrant (runId : Text) (l : Launch) (clientId : Text) : RunTask Bool := do
  let _ ← call runId l (.request clientId)
  guarded

def noteDemoted (runId clientId : Text) (s : Runner) : Runner :=
  s.updateRun runId fun run => { run with autoDemotedClientId := some clientId }

/-- The second attempt of `_attach_read_write`, where the launcher holds the slot. -/
def makeRoom (runId : Text) (l : Launch) (federated : Bool) : RunTask Bool := do
  let s ← .get
  match l.requestingClientId with
  | none => return false
  | some c =>
      if c ≠ [] ∧ s.console.getClientMode c l.portName = some .readWrite then
        releaseOriginSlot runId l federated c
        let _ ← call runId l (.demote c)
        .modify (noteDemoted runId c)
        notifyClientMode runId l c .actionSelfDemoted
        addActionClient runId l
      else
        return false

def linkDown (l : Launch) : Text :=
  "Federated link for port ".toList ++ l.portName ++ " is down; cannot run action ".toList ++ l.actionId

def slotUnavailable (l : Launch) : Text :=
  "Port ".toList ++ l.portName ++ " read-write slot is unavailable for action ".toList ++ l.actionId

def notGranted (l : Launch) : Text :=
  "Origin server did not grant the read-write slot for port ".toList ++ l.portName ++ "; action ".toList ++ l.actionId ++
    " cannot run while another client holds it".toList

/-- The attempts of `_attach_read_write`. -/
def attach (runId : Text) (l : Launch) (federated : Bool) : RunTask Bool := do
  let attached ← addActionClient runId l
  if attached then return true else makeRoom runId l federated

/-- `_attach_read_write`. Whether the port is one of another node is looked up once. -/
def attachReadWrite (runId : Text) (l : Launch) : RunTask Unit := do
  let s ← .get
  if s.links.get? l.portName = some false then
    .throw (.busy (linkDown l))
  else
    let attached ← attach runId l (s.links.get? l.portName).isSome
    if !attached then
      .throw (.busy (slotUnavailable l))
    else if (s.links.get? l.portName).isSome then
      let granted ← requestOriginGrant runId l (actionClientId runId)
      if granted then
        return ()
      else
        removeActionClient runId l
        .throw (.busy (notGranted l))
    else
      return ()

/-- `asyncio.wait_for(action.run_func(session))`. -/
def script : RunTask Unit := .await fun
  | .value _ => .ret ()
  | .raised e => .throw e

/-- The `except` clauses around the script. -/
def scriptFailed (runId : Text) (l : Launch) (s : Runner) : Exn → Runner
  | .timeout =>
      let error := "Action timed out after ".toList ++ l.timeout ++ "s".toList
      (s.setOutcome runId .timeout (some error)).publish runId (.script ("action_timeout: ".toList ++ error))
  | .cancelled =>
      let error := "Cancelled by user".toList
      (s.setOutcome runId .cancelled (some error)).publish runId (.script ("action_cancelled: ".toList ++ error))
  | .busy message =>
      (s.setOutcome runId .failed (some message)).publish runId (.script ("action_error: PortBusyError: ".toList ++ message))
  | .other kind message =>
      (s.setOutcome runId .failed (some message)).publish runId
        (.script ("action_error: ".toList ++ kind ++ ": ".toList ++ message))

def runScript (runId : Text) (l : Launch) : RunTask Unit :=
  .tryCatch (do script; .modify (setOutcome runId .success none)) fun e => .modify fun s => s.scriptFailed runId l e

/-- The restore of `_detach_and_restore` without the grant of the origin. -/
def promoteBack (runId : Text) (l : Launch) : RunTask Unit := do
  let s ← .get
  match s.autoDemoted runId with
  | none => return ()
  | some c =>
      let _ ← call runId l (.promote c)
      notifyClientMode runId l c .actionRestored

/-- The end of `_detach_and_restore` after a denial of the origin. -/
def restoreDenied (runId : Text) (l : Launch) : RunTask Unit := do
  let s ← .get
  match s.autoDemoted runId with
  | none => return ()
  | some c => notifyClientMode runId l c .actionRestoreDenied

/-- `_detach_and_restore`. The field is read again after the grant. -/
def detachAndRestore (runId : Text) (l : Launch) : RunTask Unit := do
  removeActionClient runId l
  let s ← .get
  match s.autoDemoted runId with
  | none => return ()
  | some c =>
      let attached ← call runId l (.attached c)
      if attached then
        let s ← .get
        if (s.links.get? l.portName).isSome then
          let granted ← requestOriginGrant runId l c
          if granted then promoteBack runId l else restoreDenied runId l
        else
          promoteBack runId l
      else
        return ()

/-- The synchronous step of the `finally` clause: the lock, the registries and the last event. -/
def release (runId : Text) (l : Launch) (s : Runner) : Runner :=
  let s := { s with
    activeByPort := s.activeByPort.pop l.portName
    openFinishedByPort := s.openFinishedByPort.set l.portName runId
    sessions := s.sessions.filter (· ≠ runId) }
  s.updateRun runId fun run => { run with events := run.events ++ [.actionFinished run.status run.error] }

/-- The `finally` clause. -/
def cleanup (runId : Text) (l : Launch) : RunTask Unit := do
  detachAndRestore runId l
  .modify (release runId l)
  let _ ← guarded
  return ()

/-- The body of `_execute` inside its outer `try`. -/
def attachAndRun (runId : Text) (l : Launch) : RunTask Unit := do
  attachReadWrite runId l
  .modify (publish runId .actionStarted)
  let _ ← guarded
  .modify fun s => { s with sessions := runId :: s.sessions }
  runScript runId l

/-- `_execute`. -/
def execute (runId : Text) (l : Launch) : RunTask Unit :=
  .tryFinally
    (.tryCatch (attachAndRun runId l) fun
      | .busy message => .modify (setOutcome runId .failed (some message))
      | e => .throw e)
    (cleanup runId l)

/-- A task that is cancelled before it first runs never enters its body. -/
def taskOf (runId : Text) (l : Launch) : Signal → RunTask Unit
  | .value _ => execute runId l
  | .raised e => .throw e

/-! ## Operations -/

/-- Settles the finished run of the port that is still open. -/
def closePrior (s : Runner) (name : Text) : Runner :=
  match s.openFinishedByPort.get? name with
  | none => s
  | some prior =>
      { s with openFinishedByPort := s.openFinishedByPort.pop name }.updateRun prior fun run => { run with closed := true }

/-- `launch_run` with the id that `uuid4` draws. `valid` says that the parameters are. -/
def launchRun (s : Runner) (runId : Text) (l : Launch) (valid : Bool) : Runner × Option (Text × (Signal → RunTask Unit)) :=
  if (s.getActiveRun l.portName).isSome then (s, none)
  else
    let s := s.closePrior l.portName
    if !valid then (s, none)
    else
      ({ s with
          runs := s.runs.set runId { launch := l }
          activeByPort := s.activeByPort.set l.portName runId }, some (runId, taskOf runId l))

/-- Only the operator of a run may act on it, once it has one. -/
def mayOperate (run : ActionRun) (clientId : Option Text) : Bool :=
  run.operatorClientId = none || run.operatorClientId = clientId

/-- `cancel_run`. -/
def cancelRun (s : Runner) (runId : Text) (clientId : Option Text) : Runner :=
  match s.runs.get? runId with
  | some run =>
      if run.status = .running && mayOperate run clientId then { s with cancelling := runId :: s.cancelling } else s
  | none => s

/-- `close_run`. -/
def closeRun (s : Runner) (runId : Text) (clientId : Option Text) : Runner :=
  match s.runs.get? runId with
  | some run =>
      if run.status ≠ .running && !run.closed && mayOperate run clientId then
        let s := s.updateRun runId fun run => { run with closed := true }
        if s.openFinishedByPort.get? run.launch.portName = some runId then
          { s with openFinishedByPort := s.openFinishedByPort.pop run.launch.portName }
        else s
      else s
  | none => s

/-- `take_over_operator`. -/
def takeOverOperator (s : Runner) (runId clientId : Text) : Runner :=
  match s.runs.get? runId with
  | some run =>
      if !run.closed && clientId ≠ [] then
        let s := s.updateRun runId fun run =>
          { run with
            operatorClientId := some clientId
            autoDemotedClientId :=
              if run.status = .running then run.autoDemotedClientId.map fun _ => clientId else run.autoDemotedClientId }
        s.publish runId (.operatorChanged clientId run.operatorClientId)
      else s
  | none => s

/-- `submit_operator_input`. -/
def submitOperatorInput (s : Runner) (runId text : Text) (clientId : Option Text) : Runner :=
  match s.runs.get? runId with
  | some run =>
      if runId ∈ s.sessions && mayOperate run clientId then { s with inputs := s.inputs ++ [(runId, text)] } else s
  | none => s

/-- The script of the run is what its task waits for. -/
def inScript (s : Runner) (runId : Text) : Bool :=
  runId ∈ s.sessions && (s.runs.get? runId).any (·.status = .running)

end Runner

/-- What others do to the ports. A port that opens has no clients. -/
inductive Env
  | attach (name clientId : Text) (username : String) (mode : Mode)
  | detach (name clientId : Text)
  | promote (name clientId : Text)
  | demote (name clientId : Text)
  | open (name : Text) (p : Port)
  | close (name : Text)
  | policy (policy : Policy)
  | clock (now : Nat)

/-- No session has an id of the form that the runs give their own clients. -/
def Env.apply (s : Console) : Env → Option Console
  | attach name clientId username mode =>
      if actionPrefix.isPrefixOf clientId then none else some (s.addClientToPort name clientId username mode).1
  | detach name clientId => some (s.removeClientFromPort name clientId).1
  | promote name clientId => some (s.promoteClient name clientId).1
  | demote name clientId => some (s.demoteClient name clientId).1
  | «open» name p => some { s with ports := s.ports.set name { p with connectedClients := [] } }
  | close name => some { s with ports := s.ports.pop name }
  | policy p => some { s with policy := p }
  | clock now => some { s with clock := now }

inductive Op
  | launch (runId : Text) (l : Launch) (valid : Bool)
  | cancel (runId : Text) (clientId : Option Text)
  | close (runId : Text) (clientId : Option Text)
  | takeOver (runId clientId : Text)
  | submit (runId text : Text) (clientId : Option Text)
  /-- An event that the script of the run reports. -/
  | report (runId name : Text)
  | link (name : Text) (up : Option Bool)
  | env (e : Env)

namespace Runner

/-- No id is drawn twice. -/
def apply (s : Runner) : Op → Option (Runner × Option (Text × (Signal → RunTask Unit)))
  | .launch runId l valid => if (s.runs.get? runId).isSome then none else some (s.launchRun runId l valid)
  | .cancel runId clientId => some (s.cancelRun runId clientId, none)
  | .close runId clientId => some (s.closeRun runId clientId, none)
  | .takeOver runId clientId => some (s.takeOverOperator runId clientId, none)
  | .submit runId text clientId => some (s.submitOperatorInput runId text clientId, none)
  | .report runId name => if s.inScript runId then some (s.publish runId (.script name), none) else none
  | .link name (some up) => some ({ s with links := s.links.set name up }, none)
  | .link name none => some ({ s with links := s.links.pop name }, none)
  | .env e => (e.apply s.console).map fun console => ({ s with console := console }, none)

/-- A cancel reaches the task where it waits, and a script may raise one itself. A call may swallow it. Only the script raises
anything else. -/
def accept (s : Runner) (runId : Text) (i : Signal) : Option Runner :=
  let delivered := { s with cancelling := s.cancelling.filter (· ≠ runId) }
  match i with
  | .value _ => some delivered
  | .raised .cancelled => if runId ∈ s.cancelling ∨ s.inScript runId then some delivered else none
  | .raised _ => if s.inScript runId then some delivered else none

/-- A server that starts: nobody is attached, and nothing has been launched. -/
def boot (policy : Policy) (ports : Dict Text Port) (links : Dict Text Bool) : Runner where
  console := { policy := policy, ports := ports.mapValues fun _ p => { p with connectedClients := [] } }
  links := links

end Runner

/-- The runner with the tasks that wait. -/
abbrev System := Async.Pool Text Runner Exn Signal

abbrev Act := Async.PoolAct Text Signal Op

def System.step : System → Act → Option System := Async.Pool.step Runner.accept Runner.apply

end OpenMux.Actions
