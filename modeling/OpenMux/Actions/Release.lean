import OpenMux.Actions.Runner

/-!
# What a run leaves behind

What holds of a run once its task is finished, and the steps along which it does.
-/

namespace OpenMux.Actions

open Py Origin Access

/-- The name of the event that ends a run. -/
def finishedName : Text := "action_finished".toList

/-- The run has told that it is finished. -/
def ActionRun.Finished (run : ActionRun) : Prop := ∃ e ∈ run.events, e.name = finishedName

instance (run : ActionRun) : Decidable run.Finished := inferInstanceAs (Decidable (∃ e ∈ run.events, _))

/-- The client has taken the run over. -/
def ActionRun.TakenBy (run : ActionRun) (clientId : Text) : Prop := ∃ previous, .operatorChanged clientId previous ∈ run.events

/-- How many records the client of a run has on a port. -/
def records (s : Console) (name runId : Text) : Nat :=
  match s.ports.get? name with
  | some p => p.connectedClients.countP (·.clientId = actionClientId runId)
  | none => 0

namespace Runner

/-- The run has demoted the client. -/
def Demoted (s : Runner) (runId clientId : Text) : Prop := ∃ r ∈ s.calls, r.runId = runId ∧ r.call = .demote clientId

/-- The run has looked for the client when it ended: it tried to promote it, told it that it does not, or found it gone. -/
def Offered (s : Runner) (runId name clientId : Text) : Prop :=
  ∃ r ∈ s.calls, r.runId = runId ∧ (r.call = .promote clientId ∨ r.call = .tell clientId .actionRestoreDenied ∨
    r.call = .attached clientId ∧ r.before.getClientMode clientId name = none)

/-- What is left of a run when its task is finished. -/
structure Released (s : Runner) (runId : Text) (run : ActionRun) : Prop where
  status : run.status ≠ .running
  lock : s.activeByPort.get? run.launch.portName ≠ some runId
  detached : records s.console run.launch.portName runId = 0
  restore : ∀ c, s.Demoted runId c → ∃ c', run.autoDemotedClientId = some c' ∧ (c' = c ∨ run.TakenBy c') ∧
    s.Offered runId run.launch.portName c'
  events : ∃ before status error after, run.events = before ++ .actionFinished status error :: after ∧
    (∀ e ∈ before, e.name ≠ finishedName) ∧ ∀ e ∈ after, ∃ c previous, e = .operatorChanged c previous

/-- The steps that leave out the slips: a cancel reaches a run in its script, a run is closed after it has told that it is
finished, and no script reports an event of that name. -/
def Orderly (s : Runner) : Op → Prop
  | .cancel runId clientId => ∀ run, s.runs.get? runId = some run → run.status = .running →
      mayOperate run clientId = true → s.inScript runId = true
  | .close runId clientId => ∀ run, s.runs.get? runId = some run → run.status ≠ .running →
      mayOperate run clientId = true → run.Finished
  | .report _ name => name ≠ finishedName
  | _ => True

end Runner

/-- A step whose operation is orderly. -/
def System.Orderly (p : System) : Act → Prop
  | .op o => p.state.Orderly o
  | .signal _ _ => True

end OpenMux.Actions
