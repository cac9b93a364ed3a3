import OpenMux.Lib.Run

/-!
# The idle stop of a command port

The clients, the process and the idle timers of a command port, at the points where its tasks wait. Beside the count that the port keeps
stands the number of clients that was last reported to it.
-/

namespace OpenMux.Command

/-- A task of `_idle_stop_after_delay`: before the end of its delay, with a cancellation to come, and in `stop`. -/
inductive TimerPhase
  | sleeping
  | cancelled
  | stopping
deriving DecidableEq

structure IdleTimer where
  id : Nat
  phase : TimerPhase
deriving DecidableEq

/-- The task of `_monitor_loop`: not run yet, waiting for the process, and draining its output. -/
inductive MonitorTask
  | fresh
  | waiting
  | draining
deriving DecidableEq

/-- The end of a process with the number of clients that are attached then, and a stop that a timer starts. -/
inductive LifecycleEvent
  | exited (attached : Nat) (told : Bool)
  | stopped (attached : Nat) (told : Bool)
  | idleStop (attached : Nat)
deriving DecidableEq

structure Lifecycle where
  /-- The number of clients that was last reported. -/
  attached : Nat := 0
  clientCount : Nat := 0
  process : Bool := false
  isRunning : Bool := false
  processActive : Bool := false
  monitor : Option MonitorTask := none
  idleStopTask : Option Nat := none
  /-- The timers that have not ended. -/
  timers : List IdleTimer := []
  nextTimer : Nat := 0
  /-- The calls of `_spawn_process` that wait for the process. -/
  spawns : Nat := 0
  /-- The calls of `stop` that wait, with the timer that made the call. -/
  stops : List (Option Nat) := []
  events : List LifecycleEvent := []
deriving DecidableEq

/-- What happens: the number of clients is reported; a start or a respawn begins and ends; the monitor runs first, sees the end of the
process and has drained its output; the output of the process ends; a stop begins and ends; a timer wakes up, or sees its cancellation. -/
inductive LifecycleAct
  | clients (count : Nat)
  | spawn
  | spawned (ok : Bool)
  | watch
  | hangup
  | exited
  | reported
  | stop
  | stopped (timer : Option Nat)
  | fire (timer : Nat)
  | unwind (timer : Nat)

namespace Lifecycle

/-- The task is not done. -/
def pending (s : Lifecycle) (i : Nat) : Bool := s.timers.any (·.id = i)

/-- `_idle_stop_task.cancel()`. -/
def cancelIdleStop (s : Lifecycle) : Lifecycle :=
  { s with timers := s.timers.map fun t => if s.idleStopTask = some t.id ∧ t.phase = .sleeping then { t with phase := .cancelled } else t }

/-- `_schedule_idle_stop`. -/
def scheduleIdleStop (idle : Bool) (s : Lifecycle) : Lifecycle :=
  if idle ∧ ¬ s.idleStopTask.any s.pending then
    { s with idleStopTask := some s.nextTimer, timers := s.timers ++ [⟨s.nextTimer, .sleeping⟩], nextTimer := s.nextTimer + 1 }
  else s

/-- `on_client_count_changed`; an on-demand start is a task of its own. -/
def onClientCountChanged (idle : Bool) (s : Lifecycle) (count : Nat) : Lifecycle :=
  let old := s.clientCount
  let s := { s with attached := count, clientCount := count }
  if old = 0 ∧ 0 < count then s.cancelIdleStop
  else if 0 < old ∧ count = 0 then s.scheduleIdleStop idle
  else s

/-- `stop` up to its first wait. A timer that calls it cancels itself, so that its stop is cut short. -/
def beginStop (s : Lifecycle) (timer : Option Nat) : Lifecycle :=
  let s := if s.isRunning then { s.cancelIdleStop with idleStopTask := none } else s
  { s with monitor := none, stops := s.stops ++ [timer] }

/-- `_reset_stop_state`. -/
def resetStopState (s : Lifecycle) : Lifecycle :=
  { s with
    process := false
    clientCount := 0
    isRunning := false
    processActive := false
    events := s.events ++ [.stopped s.attached (decide (0 < s.clientCount))] }

/-- The end of a timer. -/
def endTimer (s : Lifecycle) (t : IdleTimer) : Lifecycle := { s with timers := s.timers.erase t, idleStopTask := none }

def step (idle : Bool) (s : Lifecycle) : LifecycleAct → Option Lifecycle
  | .clients count => some (s.onClientCountChanged idle count)
  | .spawn => if s.isRunning && s.processActive then none else some { s with spawns := s.spawns + 1 }
  | .spawned ok =>
      if s.spawns = 0 then none
      else if ok then some { s with
        spawns := s.spawns - 1
        process := true
        isRunning := true
        processActive := true
        monitor := some (s.monitor.getD .fresh) }
      else some { s with spawns := s.spawns - 1 }
  | .watch =>
      if s.monitor ≠ some .fresh then none
      else if s.process then some { s with monitor := some .waiting }
      else some { s with monitor := none, isRunning := false }
  | .hangup => if s.process then some { s with processActive := false } else none
  | .exited => if s.monitor = some .waiting then some { s with monitor := some .draining, processActive := false } else none
  | .reported =>
      if s.monitor = some .draining then
        some { s with
          monitor := none
          isRunning := false
          events := s.events ++ [.exited s.attached (s.isRunning && decide (0 < s.clientCount))] }
      else none
  | .stop => if s.isRunning || s.process then some (s.beginStop none) else none
  | .stopped timer =>
      if timer ∈ s.stops then
        let s := { s.resetStopState with stops := s.stops.erase timer }
        some (timer.elim s fun i => s.endTimer ⟨i, .stopping⟩)
      else none
  | .fire i =>
      if ⟨i, .sleeping⟩ ∈ s.timers then
        if s.clientCount = 0 ∧ s.isRunning then
          let fired : Lifecycle := { s with
            timers := s.timers.map fun t => if t.id = i then { t with phase := .stopping } else t
            events := s.events ++ [.idleStop s.attached] }
          some (fired.beginStop (some i))
        else some (s.endTimer ⟨i, .sleeping⟩)
      else none
  | .unwind i => if ⟨i, .cancelled⟩ ∈ s.timers then some (s.endTimer ⟨i, .cancelled⟩) else none

/-- No start and no stop is under way. -/
def Quiet (s : Lifecycle) : Prop := s.spawns = 0 ∧ s.stops = []

/-- The process runs. -/
def Running (s : Lifecycle) : Prop := s.isRunning = true ∧ s.processActive = true

/-- An idle stop is to come. -/
def Awaits (s : Lifecycle) : Prop := ∃ t ∈ s.timers, t.phase = .sleeping

instance {s : Lifecycle} : Decidable s.Quiet := inferInstanceAs (Decidable (_ ∧ _))

instance {s : Lifecycle} : Decidable s.Running := inferInstanceAs (Decidable (_ ∧ _))

instance {s : Lifecycle} : Decidable s.Awaits := inferInstanceAs (Decidable (∃ t ∈ s.timers, t.phase = .sleeping))

end Lifecycle

/-- Clients that are attached are told of the end of a process, and no timer stops it while there is one. -/
def LifecycleEvent.Right : LifecycleEvent → Prop
  | .exited attached told => 0 < attached → told = true
  | .stopped attached told => 0 < attached → told = true
  | .idleStop attached => attached = 0

namespace Lifecycle

/-- The port follows its clients. -/
structure Follows (idle : Bool) (s : Lifecycle) : Prop where
  count : s.clientCount = s.attached
  timer : idle = true → s.Quiet → s.Running → s.attached = 0 → s.Awaits
  events : ∀ e ∈ s.events, e.Right

/-- The condition on a step: a stop ends while no client is attached; a start that is the last operation under way ends with a client
attached or a timer to come; the last client does not leave before the timer that its coming cancelled has ended; and no exit is
reported for a port that was reset meanwhile, with clients attached since. -/
def Clean (idle : Bool) (s : Lifecycle) : LifecycleAct → Prop
  | .clients count => idle = true → count = 0 → 0 < s.clientCount → s.Quiet → s.Running → s.idleStopTask.any s.pending = true → s.Awaits
  | .spawned ok => idle = true → s.spawns = 1 → s.stops = [] → ok = true ∨ s.Running → s.attached = 0 → s.Awaits
  | .stopped _ => s.attached = 0
  | .reported => s.isRunning = false → s.attached = 0
  | _ => True

instance {idle : Bool} {s : Lifecycle} : (a : LifecycleAct) → Decidable (Clean idle s a)
  | .clients _ => inferInstanceAs (Decidable (_ → _ → _ → _ → _ → _ → _))
  | .spawned _ => inferInstanceAs (Decidable (_ → _ → _ → _ → _ → _))
  | .stopped _ => inferInstanceAs (Decidable (_ = _))
  | .reported => inferInstanceAs (Decidable (_ → _))
  | .spawn => isTrue trivial
  | .watch => isTrue trivial
  | .hangup => isTrue trivial
  | .exited => isTrue trivial
  | .stop => isTrue trivial
  | .fire _ => isTrue trivial
  | .unwind _ => isTrue trivial

end Lifecycle

end OpenMux.Command
