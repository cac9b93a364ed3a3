import Mathlib
import OpenMux.Arbitration.Stream

/-!
# What can happen to a stream

The moves of a single stream, apart from the two nodes that make them, and the invariant that they keep. A stream is settled,
or its one request for the slot is on its way, replied to, or granted.
-/

namespace OpenMux.Arbitration

open Origin

namespace StreamView

/-- The mode that an ack reports. -/
def mirrorMode (v : StreamView) : Mode := v.mirror.getD .readOnly

/-- The future of `_fedrw_pending` waits. -/
def awaited (v : StreamView) : Prop := ∃ r ∈ v.requests, v.pending = some r.id ∧ r.fut = .pending

/-- The requests after the future with the id is set. -/
def setFut (v : StreamView) (id : Nat) (fut : Fut) : List Request :=
  v.requests.map fun r => if r.id = id then { r with fut := fut } else r

/-- The requests without the one with the id. -/
def without (v : StreamView) (id : Nat) : List Request := v.requests.filter (·.id ≠ id)

inductive Move (v : StreamView) : StreamView → Prop
  | connect (h : v = {}) : Move v { session := true, frames := [.openStream] }
  | ask (r : Request) (a : FedrwAction) (hs : v.session) (hc : v.Clear) (hr : r.Asks) (hf : r.fut = .pending)
      (ha : a.Asks) :
      Move v { v with requests := v.requests ++ [r], pending := some r.id, frames := v.frames ++ [.fedrw a] }
  | release (r : Request) (hs : v.session) (hw : v.awaiting = false) (hg : v.granted = false) (hr : ¬ r.Asks) :
      Move v { v with
        record := false, requests := v.requests ++ [r], pending := some r.id, frames := v.frames ++ [.fedrw .release] }
  | reopen (hs : v.session) : Move v { v with frames := v.frames ++ [.openStream] }
  | expire (id : Nat) (hs : v.session) (hf : ∃ r ∈ v.requests, r.id = id ∧ r.fut = .pending) (h : (∃ r ∈ v.requests, r.id = id ∧ ¬ r.Asks) ∨
      v.acks.head? = some .readOnly ∧ v.mirror ≠ some .readWrite) : Move v { v with requests := v.setFut id .cancelled }
  | finish (r : Request) (record : Bool) (hs : v.session) (hr : r ∈ v.requests) (hf : r.fut ≠ .pending)
      (hrec : if r.Asks ∧ r.fut = .done .readWrite then record = true else record = v.record) :
      Move v { v with requests := v.without r.id, pending := none, record := record }
  | follow (r r' : Request) (hs : v.session) (hr : r ∈ v.requests) (ha : r.Asks) (hf : r.fut = .done .readWrite)
      (hacks : v.acks = []) (ha' : r'.Asks) (hf' : r'.fut = .pending) :
      Move v { v with
        requests := v.without r.id ++ [r'], pending := some r'.id, frames := v.frames ++ [.fedrw .request] }
  | readReply (m : Mode) (rest : List Mode) (r : Request) (hacks : v.acks = m :: rest) (hr : r ∈ v.requests)
      (hp : v.pending = some r.id) (hf : r.fut = .pending) :
      Move v { v with acks := rest, requests := v.setFut r.id (.done m), pending := none }
  | readNotice (m : Mode) (rest : List Mode) (hacks : v.acks = m :: rest) (h : ¬ v.awaited)
      (hg : m = .readOnly → v.granted = false) :
      Move v { v with acks := rest, pending := none, record := v.record && m ≠ .readOnly }
  | openStream (rest : List StreamFrame) (hf : v.frames = .openStream :: rest) (hm : v.mirror ≠ some .readWrite) :
      Move v { v with frames := rest, opened := true, mirror := some .readOnly }
  | answer (a : FedrwAction) (rest : List StreamFrame) (mirror : Option Mode) (hf : v.frames = .fedrw a :: rest)
      (harb : v.arbitrating = false) (ho : v.opened) (hrel : ¬ a.Asks → mirror ≠ some .readWrite)
      (hkeep : a.Asks → v.mirror = some .readWrite → mirror = some .readWrite) :
      Move v { v with frames := rest, mirror := mirror, acks := v.acks ++ [mirror.getD .readOnly] }
  | arbitrate (a : FedrwAction) (rest : List StreamFrame) (hf : v.frames = .fedrw a :: rest) (ha : a.Asks)
      (ho : v.opened) : Move v { v with frames := rest, arbitrating := true }
  | settle (mirror : Option Mode) (harb : v.arbitrating) (ho : mirror.isSome → v.opened)
      (hkeep : v.mirror = some .readWrite → mirror = some .readWrite) :
      Move v { v with arbitrating := false, mirror := mirror, acks := v.acks ++ [mirror.getD .readOnly] }
  | tell (ho : v.opened) (ha : v.asked = false) :
      Move v { v with mirror := v.mirror.map fun _ => .readOnly, acks := v.acks ++ [.readOnly] }
  | demote (ho : v.opened) : Move v { v with mirror := v.mirror.map fun _ => .readOnly, owed := true }
  | notify (owed : Bool) (ho : v.opened) (h : v.Tellable) : Move v { v with acks := v.acks ++ [.readOnly], owed := owed }
  | restore (mirror : Option Mode) (owed : Bool) (ho : v.opened) (h : mirror = some .readWrite ↔ v.expects) :
      Move v { v with mirror := mirror, owed := owed }

/-! ## The invariant -/

/-- The mirror is in the mode that the record is going to have, unless a demotion is owed. -/
def Agrees (v : StreamView) : Prop := v.owed = false → (v.mirror = some .readWrite ↔ v.expects)

/-- Nobody asks for the slot. -/
structure Settled (v : StreamView) : Prop where
  actions : ∀ a ∈ v.actions, a = .release
  acks : ∀ m ∈ v.acks, m = .readOnly
  idle : v.arbitrating = false
  awaiting : v.awaiting = false
  granted : v.granted = false
  holds : v.record → v.actions = [] ∧ ¬ v.awaited
  agrees : v.actions = [] → v.Agrees

/-- The one request of the stream asks for the slot. -/
structure Asking (v : StreamView) (r : Request) (fut : Fut) : Prop where
  requests : v.requests = [r]
  asks : r.Asks
  fut : r.fut = fut

/-- The request has yet to be answered. -/
structure Sent (v : StreamView) (r : Request) : Prop extends Asking v r .pending where
  pending : v.pending = some r.id
  acks : v.acks = []
  frame : (v.arbitrating = false ∧ ∃ a, v.actions = [a] ∧ a.Asks) ∨ (v.arbitrating = true ∧ v.actions = [])
  mirror : v.owed = false → v.record → v.mirror = some .readWrite

/-- The answer is on its way, perhaps with notices behind it. -/
structure Replied (v : StreamView) (r : Request) : Prop extends Asking v r .pending where
  pending : v.pending = some r.id
  idle : v.arbitrating = false
  actions : v.actions = []
  acks : ∃ m rest, v.acks = m :: rest ∧ ∀ n ∈ rest, n = .readOnly
  agrees : v.Agrees

/-- The request was granted, and the coroutine has yet to go on. -/
structure Granted (v : StreamView) (r : Request) : Prop extends Asking v r (.done .readWrite) where
  idle : v.arbitrating = false
  actions : v.actions = []
  acks : ∀ m ∈ v.acks, m = .readOnly
  agrees : v.Agrees

inductive Phase (v : StreamView) : Prop
  | settled (h : v.Settled)
  | sent (r : Request) (h : v.Sent r)
  | replied (r : Request) (h : v.Replied r)
  | granted (r : Request) (h : v.Granted r)

structure Invariant (v : StreamView) : Prop where
  blank : v.session = false → v = {}
  /-- The OPEN of the stream is ahead of its other frames. -/
  reached : v.session → v.opened ∨ v.frames.head? = some .openStream
  mirror : v.mirror.isSome → v.opened
  owed : v.owed → v.opened
  phase : v.Phase

end StreamView

end OpenMux.Arbitration
