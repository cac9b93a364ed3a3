import OpenMux.Lib.Run

/-!
# Connections on demand

The tasks that open and close the connection of a TCP initiator port, each taken from one wait to the next. Every task that was started has a
place in a list, and `reconnect_task` and `_idle_disconnect_task` are such places. A cancelled task gets its cancellation when it is next run.
-/

namespace OpenMux.Initiator

/-- The options of a port that its connection depends on. -/
structure DemandConfig where
  enabled : Bool := true
  connectOnDemand : Bool
  disconnectWhenIdle : Bool
  autoReconnect : Bool

/-- Where `_connection_manager` waits; a connection attempt of `_monitor_connection` is a retry. -/
inductive ManagerPhase
  | created
  | connecting (retry : Bool)
  | monitoring
  | backingOff
  | done
deriving DecidableEq

/-- Where `_idle_disconnect` waits: for its delay, for a manager that it has cancelled, for the writer to close. -/
inductive IdlePhase
  | sleeping
  | stopping (manager : ℕ)
  | closing
  | done
deriving DecidableEq

structure Task (φ : Type) where
  phase : φ
  cancelled : Bool := false
deriving DecidableEq

structure Demand where
  activeClients : ℕ := 0
  isConnected : Bool := false
  managers : List (Task ManagerPhase) := []
  reconnectTask : Option ℕ := none
  idles : List (Task IdlePhase) := []
  idleDisconnectTask : Option ℕ := none
deriving DecidableEq

/-- The number of clients changes; a manager runs, and an attempt that it waits for has come to an end; an idle disconnect runs; the
connection is lost. -/
inductive DemandAct
  | clientCount (count : ℕ)
  | manager (i : ℕ) (connected : Bool)
  | idle (k : ℕ)
  | lost
deriving DecidableEq

namespace Demand

def setManager (s : Demand) (i : ℕ) (phase : ManagerPhase) : Demand := { s with managers := s.managers.set i ⟨phase, false⟩ }

def setIdle (s : Demand) (k : ℕ) (phase : IdlePhase) : Demand := { s with idles := s.idles.set k ⟨phase, false⟩ }

/-- The manager that `reconnect_task` refers to, unless it is done. -/
def running (s : Demand) : Option ℕ :=
  s.reconnectTask.filter fun i => (s.managers[i]?).any fun m => m.phase ≠ .done

/-- The timer that `_idle_disconnect_task` refers to is cancelled. -/
def cancelIdle (s : Demand) : Demand :=
  match s.idleDisconnectTask with
  | none => s
  | some k =>
      match s.idles[k]? with
      | none => s
      | some t =>
          if t.phase = .done then s
          else { s with idles := s.idles.set k { t with cancelled := true }, idleDisconnectTask := none }

/-- A new `reconnect_task`. -/
def startManager (s : Demand) : Demand :=
  { s with managers := s.managers ++ [⟨.created, false⟩], reconnectTask := some s.managers.length }

/-- `start`. -/
def start (cfg : DemandConfig) : Demand := if cfg.enabled && ! cfg.connectOnDemand then startManager {} else {}

/-- A new `_idle_disconnect_task`. -/
def startIdle (s : Demand) : Demand := { s with idles := s.idles ++ [⟨.sleeping, false⟩], idleDisconnectTask := some s.idles.length }

/-- `on_client_count_changed`. -/
def onClientCountChanged (cfg : DemandConfig) (s : Demand) (count : ℕ) : Demand :=
  let s := { s with activeClients := count }
  if ! cfg.connectOnDemand then s
  else
    let s := s.cancelIdle
    if 0 < count then if ! s.isConnected && s.running.isNone then s.startManager else s
    else if cfg.disconnectWhenIdle && s.isConnected then s.startIdle
    else s

/-- What follows the first attempt of a manager. -/
def afterConnect (cfg : DemandConfig) : ManagerPhase := if cfg.autoReconnect then .monitoring else .done

/-- `_connection_manager` and `_monitor_connection` from one wait to the next. -/
def runManager (cfg : DemandConfig) (s : Demand) (i : ℕ) (connected : Bool) : Option Demand :=
  match s.managers[i]? with
  | none | some ⟨.done, _⟩ => none
  | some ⟨_, true⟩ => some (s.setManager i .done)
  | some ⟨.created, false⟩ => some (s.setManager i (if s.isConnected then afterConnect cfg else .connecting false))
  | some ⟨.connecting retry, false⟩ =>
      if connected then some { s.setManager i (afterConnect cfg) with isConnected := true }
      else some (s.setManager i (if retry then .backingOff else afterConnect cfg))
  | some ⟨.monitoring, false⟩ =>
      if s.isConnected then some s
      else some (s.setManager i (if cfg.connectOnDemand && s.activeClients = 0 then .done else .connecting true))
  | some ⟨.backingOff, false⟩ => some (s.setManager i .monitoring)

/-- `_disconnect` up to the wait for the writer. -/
def beginDisconnect (s : Demand) (k : ℕ) : Demand := s.setIdle k (if s.isConnected then .closing else .done)

/-- `_idle_disconnect` from one wait to the next. A cancellation that comes after the delay does not end it: the wait for the manager takes
it for the manager's own, and the wait for the writer is in a `finally`. -/
def runIdle (s : Demand) (k : ℕ) : Option Demand :=
  match s.idles[k]? with
  | none | some ⟨.done, _⟩ => none
  | some ⟨.sleeping, true⟩ => some (s.setIdle k .done)
  | some ⟨.sleeping, false⟩ =>
      if s.activeClients ≠ 0 then some (s.setIdle k .done)
      else match s.running with
        | some i => some { s.setIdle k (.stopping i) with managers := s.managers.modify i fun m => { m with cancelled := true } }
        | none => some (s.beginDisconnect k)
  | some ⟨.stopping i, _⟩ =>
      if (s.managers[i]?).any (fun m => m.phase = .done) then some ({ s with reconnectTask := none }.beginDisconnect k) else none
  | some ⟨.closing, _⟩ => some { s.setIdle k .done with isConnected := false }

def step (cfg : DemandConfig) (s : Demand) : DemandAct → Option Demand
  | .clientCount count => some (s.onClientCountChanged cfg count)
  | .manager i connected => s.runManager cfg i connected
  | .idle k => s.runIdle k
  | .lost => if s.isConnected then some { s with isConnected := false } else none

/-! ## What a port is to keep up -/

/-- An idle disconnect whose delay is over. -/
def UnderWay (t : Task IdlePhase) : Prop := t.phase ≠ .sleeping ∧ t.phase ≠ .done

instance (t : Task IdlePhase) : Decidable (UnderWay t) := inferInstanceAs (Decidable (_ ∧ _))

/-- The port is to have a connection. -/
def Wanted (cfg : DemandConfig) (s : Demand) : Prop := if cfg.connectOnDemand then 0 < s.activeClients else cfg.enabled

instance (cfg : DemandConfig) (s : Demand) : Decidable (s.Wanted cfg) := by unfold Wanted; infer_instance

/-- The manager of the port goes on. -/
def Managed (s : Demand) : Prop := ∃ i m, s.reconnectTask = some i ∧ s.managers[i]? = some m ∧ m.phase ≠ .done ∧ m.cancelled = false

/-- No manager runs. -/
def Over (s : Demand) : Prop := ∀ m ∈ s.managers, m.phase = .done

/-- The port has clients and no connection, and no task opens one. -/
def Stranded (s : Demand) : Prop := 0 < s.activeClients ∧ s.isConnected = false ∧ s.Over

/-- No client comes while an idle disconnect is under way. -/
def NotMeanwhile (s : Demand) : DemandAct → Prop
  | .clientCount count => 0 < count → ∀ t ∈ s.idles, ¬ UnderWay t
  | _ => True

instance : (s : Demand) → (a : DemandAct) → Decidable (s.NotMeanwhile a)
  | s, .clientCount count => inferInstanceAs (Decidable (0 < count → ∀ t ∈ s.idles, ¬ UnderWay t))
  | _, .manager .. | _, .idle _ | _, .lost => isTrue trivial

/-- A timer that is to close the connection, or one that does so. -/
def Pending (t : Task IdlePhase) : Prop := t.phase = .sleeping ∧ t.cancelled = false ∨ UnderWay t

/-- A connection that no client uses is to be closed. -/
def Released (s : Demand) : Prop := s.activeClients = 0 → s.isConnected = true → ∃ t ∈ s.idles, Pending t

/-- No attempt succeeds when the clients have left. -/
def InTime (s : Demand) : DemandAct → Prop
  | .manager i true => ∀ retry, s.managers[i]? = some ⟨.connecting retry, false⟩ → 0 < s.activeClients
  | _ => True

instance : (s : Demand) → (a : DemandAct) → Decidable (s.InTime a)
  | s, .manager i true => inferInstanceAs (Decidable (∀ retry, s.managers[i]? = some ⟨.connecting retry, false⟩ → 0 < s.activeClients))
  | _, .manager _ false | _, .clientCount _ | _, .idle _ | _, .lost => isTrue trivial

end Demand

end OpenMux.Initiator
