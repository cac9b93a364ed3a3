import OpenMux.Actions.Runner
import OpenMux.Lib.Run

/-!
# Who watches a run

The events of a run and a viewer that joins its stream: the history is sent first, and then what comes through a queue of its own until
the run has finished.
-/

namespace OpenMux.Actions

open Py

def Event.isFinished : Event → Bool
  | .actionFinished _ _ => true
  | _ => false

/-- The places of `_execute` that matter to the viewers: the script runs, its outcome is known, `action_finished` has been published, and
the queues are forgotten. -/
inductive RunPhase
  | running
  | settled
  | finished
  | forgotten
deriving DecidableEq

def RunPhase.isOver : RunPhase → Bool
  | finished | forgotten => true
  | running | settled => false

/-- `maxsize` of the queues. -/
def queueSize : Nat := 200

/-- What a viewer has still to send, and what it has sent. `none` is a stream that is not subscribed, or no more. -/
structure Viewer where
  history : List Event
  queue : Option (List Event)
  sent : List Event := []

/-- `put_nowait`; a full queue drops the event. -/
def Viewer.put (v : Viewer) (e : Event) : Viewer :=
  match v.queue with
  | some q => if q.length < queueSize then { v with queue := some (q ++ [e]) } else v
  | none => v

/-- `_stream_run_events` sends its next event. -/
def Viewer.send (v : Viewer) : Option Viewer :=
  match v.history, v.queue with
  | e :: es, _ => some { v with history := es, sent := v.sent ++ [e] }
  | [], some (e :: q) => some { v with queue := if e.isFinished then none else some q, sent := v.sent ++ [e] }
  | [], _ => none

/-- The stream is at its end. -/
def Viewer.Ended (v : Viewer) : Prop := v.history = [] ∧ v.queue = none

structure EventRun where
  phase : RunPhase := .running
  events : List Event := []
  viewer : Option Viewer := none

inductive ViewAct
  /-- Any event but the last, such as that of a take-over. -/
  | publish (e : Event)
  | settle
  | finish (status : Status) (error : Option Text)
  | forget
  | join
  | send

namespace EventRun

/-- What a published event does to a viewer. -/
def deliver (s : EventRun) (e : Event) (v : Viewer) : Viewer := if s.phase = .forgotten then v else v.put e

/-- `_publish`. -/
def publish (s : EventRun) (e : Event) : EventRun :=
  { s with events := s.events ++ [e], viewer := s.viewer.map (s.deliver e) }

/-- `_handle_ws_run_events` up to its first event. -/
def join (s : EventRun) : EventRun :=
  { s with viewer := some { history := s.events, queue := if s.phase = .running then some [] else none } }

def step (s : EventRun) : ViewAct → Option EventRun
  | .publish e => if e.isFinished then none else some (s.publish e)
  | .settle => if s.phase = .running then some { s with phase := .settled } else none
  | .finish status error =>
      if s.phase = .settled then some { s.publish (.actionFinished status error) with phase := .finished } else none
  | .forget => if s.phase = .finished then some { s with phase := .forgotten } else none
  | .join => if s.viewer.isNone then some s.join else none
  | .send => s.viewer.bind fun v => v.send.map fun v => { s with viewer := some v }

end EventRun

/-- The events of a queue that are sent. -/
def upToFinish : List Event → List Event
  | [] => []
  | e :: es => if e.isFinished then [e] else e :: upToFinish es

/-- What the viewer is going to send of what it has. -/
def Viewer.rest (v : Viewer) : List Event := v.history ++ (v.queue.elim [] upToFinish)

/-- Some events that are sent one after the other. -/
def Viewer.sends : Nat → Viewer → Option Viewer
  | 0, v => some v
  | n + 1, v => v.send.bind (sends n)

/-- The stream of a viewer is that of the run, it goes on until the run is over, and then it ends with the last event of the run, once
what is left has been sent. -/
structure EventRun.Complete (s : EventRun) (v : Viewer) : Prop where
  all : v.sent ++ v.rest = s.events
  goesOn : v.queue = none → s.phase.isOver = true
  ends : s.phase.isOver = true → (v.sent ++ v.rest).getLast?.any (·.isFinished) = true
  stops : s.phase.isOver = true → ∃ w, v.sends v.rest.length = some w ∧ w.Ended

/-- Every viewer misses nothing. -/
def EventRun.Told (s : EventRun) : Prop := ∀ v, s.viewer = some v → s.Complete v

/-- A viewer joins while the run has no outcome, or after its last event; nothing is published after the last event once it has joined;
and its queue is not full when an event is published. -/
def EventRun.Clean (s : EventRun) : ViewAct → Prop
  | .publish _ => ∀ v ∈ s.viewer, s.phase.isOver = false ∧ ∀ q ∈ v.queue, q.length < queueSize
  | .finish _ _ => ∀ v ∈ s.viewer, ∀ q ∈ v.queue, q.length < queueSize
  | .join => s.phase = .running ∨ s.phase.isOver = true ∧ s.events.getLast?.any (·.isFinished) = true
  | _ => True

instance EventRun.Clean.decidable (s : EventRun) : (a : ViewAct) → Decidable (s.Clean a)
  | .publish _ => inferInstanceAs (Decidable (∀ v ∈ s.viewer, s.phase.isOver = false ∧ ∀ q ∈ v.queue, q.length < queueSize))
  | .finish _ _ => inferInstanceAs (Decidable (∀ v ∈ s.viewer, ∀ q ∈ v.queue, q.length < queueSize))
  | .join => inferInstanceAs (Decidable (_ ∨ _ ∧ _))
  | .settle | .forget | .send => isTrue trivial

end OpenMux.Actions
