import OpenMux.Federation.Proxy
import OpenMux.Lib.Run
import OpenMux.Origin.Port

/-!
# Power switches on another node

`relay_power_switch` as the calls of it that are under way, with the connections to the origins: the frames that were written
to each, and the replies that are on their way back. Each connection belongs to one peer, which it keeps once the handshake
has named it.
-/

namespace OpenMux.Power

open Py Federation Origin

/-- A proxy as far as the anchor of a switch reads it. -/
structure Proxy where
  /-- The key of the peer. -/
  connectionId : Text
  power : List Text := []
  clientSessions : Dict Text Int := ∅

/-- `_proxy_local_refs`. -/
def Proxy.localRefs (p : Proxy) : List Text := p.power.map fun r => ((splitRemoteRef r).map Prod.snd).getD r

/-- The body of a POWER:RESULT. -/
structure ResultBody where
  ok : Bool
  error : Option String := none
  on : Option Bool := none
deriving DecidableEq

/-- What a relay returns on a reply. -/
inductive Answer
  | switched (on : Option Bool)
  | failed (error : Option String)
deriving DecidableEq

/-- The result that `_handle_power_result_frame` sets. -/
def ResultBody.answer (body : ResultBody) : Answer := if body.ok then .switched body.on else .failed body.error

inductive Refusal
  | noFederatedSession
  | notFedBy
  | noSessionToAnchor
deriving DecidableEq

inductive Outcome
  | refused (r : Refusal)
  | unreachable
  | answered (a : Answer)
  | timedOut
  | cancelled
deriving DecidableEq

inductive Future
  | waiting
  | resolved (a : Answer)
  | cancelled
deriving DecidableEq

inductive Phase
  | sending
  | waiting
  | returned (o : Outcome)
deriving DecidableEq

structure Call where
  /-- The anchor; `none` when the relay was refused before it. -/
  slot : Option Slot
  fut : Future
  phase : Phase
deriving DecidableEq

/-- A POWER:SWITCH frame, and the call that wrote it. -/
structure Switch where
  conn : Text
  portName : Text
  sid : Int
  ref : Text
  on : Bool
  claims : List Text
  call : Nat
deriving DecidableEq

/-- A POWER:RESULT frame, and the call whose frame it answers. -/
structure Result where
  conn : Text
  sid : Int
  body : ResultBody
  call : Nat
deriving DecidableEq

structure Node where
  proxies : Dict Text Proxy := ∅
  /-- `_power_switch_pending`. -/
  pending : Dict Slot Nat := ∅
  calls : List Call := []
  requests : List Switch := []
  replies : List Result := []
  /-- What the origins have answered, and to which calls. -/
  answers : List (Nat × ResultBody) := []

namespace Node

/-- `_power_switch_anchor`: the slot and the ref on the wire. -/
def powerSwitchAnchor (n : Node) (portName ref : Text) (clientId : Option Text) : Except Refusal (Slot × Text) :=
  match n.proxies.get? portName with
  | none => .error .noFederatedSession
  | some proxy =>
      let wireRef := ((splitRemoteRef ref).map Prod.snd).getD ref
      if ref ∉ proxy.power ∧ wireRef ∉ proxy.localRefs then .error .notFedBy
      else match (clientId.filter (· ≠ [])).bind proxy.clientSessions.get? with
        | none => .error .noSessionToAnchor
        | some sid => if 0 < sid then .ok ((proxy.connectionId, sid), wireRef) else .error .noSessionToAnchor

def setCall (n : Node) (i : Nat) (c : Call) : Node := { n with calls := n.calls.set i c }

/-- The `finally` of the relay takes out what is pending under its slot. -/
def return_ (n : Node) (i : Nat) (c : Call) (o : Outcome) : Node :=
  match c.slot with
  | none => n.setCall i { c with phase := .returned o }
  | some slot => { n.setCall i { c with phase := .returned o } with pending := n.pending.pop slot }

/-- The future of a new relay goes under its slot. -/
def ask (n : Node) (slot : Slot) : Node :=
  { n with pending := n.pending.set slot n.calls.length, calls := n.calls ++ [(⟨some slot, .waiting, .sending⟩ : Call)] }

/-- A relay up to the write of its frame. No connection means that none is selected. -/
def relayPowerSwitch (keyOf : Text → Text) (n : Node) (portName ref : Text) (on : Bool) (claims : List Text)
    (clientId conn : Option Text) : Option Node :=
  match n.powerSwitchAnchor portName ref clientId with
  | .error r => some { n with calls := n.calls ++ [(⟨none, .waiting, .returned (.refused r)⟩ : Call)] }
  | .ok (slot, wireRef) =>
      let i := n.calls.length
      match conn with
      | none => some ((n.ask slot).return_ i ⟨some slot, .waiting, .sending⟩ .unreachable)
      | some conn =>
          if keyOf conn = slot.1 then
            some { n.ask slot with requests := n.requests ++ [⟨conn, portName, slot.2, wireRef, on, claims, i⟩] }
          else none

/-- `_send_control_mpath` has returned. A reply can be there already. -/
def sent (n : Node) (i : Nat) (ok : Bool) : Option Node :=
  match n.calls[i]? with
  | none => none
  | some c => match c.phase, ok, c.fut with
    | .sending, false, _ => some (n.return_ i c .unreachable)
    | .sending, true, .resolved a => some (n.return_ i c (.answered a))
    | .sending, true, _ => some (n.setCall i { c with phase := .waiting })
    | _, _, _ => none

/-- The timeout of `wait_for`; it also goes before a reply that has just come. -/
def expire (n : Node) (i : Nat) : Option Node :=
  match n.calls[i]? with
  | none => none
  | some c => match c.phase with
    | .waiting => some (n.setCall i { c with fut := .cancelled })
    | _ => none

/-- `wait_for` returns or raises. -/
def wake (n : Node) (i : Nat) : Option Node :=
  match n.calls[i]? with
  | none => none
  | some c => match c.phase, c.fut with
    | .waiting, .resolved a => some (n.return_ i c (.answered a))
    | .waiting, .cancelled => some (n.return_ i c .timedOut)
    | _, _ => none

/-- The task of the caller is cancelled. -/
def cancel (n : Node) (i : Nat) : Option Node :=
  match n.calls[i]? with
  | none => none
  | some c => match c.phase with
    | .returned _ => none
    | _ => some (n.return_ i c .cancelled)

/-- The origin handles the oldest frame of the connection; without a body its reply is not sent. -/
def answer (n : Node) (conn : Text) (body : Option ResultBody) : Option Node :=
  match n.requests.find? (·.conn = conn) with
  | none => none
  | some q =>
      let handled := { n with requests := n.requests.eraseP (·.conn = conn) }
      match body with
      | none => some handled
      | some body => some { handled with
          replies := n.replies ++ [⟨conn, q.sid, body, q.call⟩], answers := n.answers ++ [(q.call, body)] }

/-- `_handle_power_result_frame`. -/
def handlePowerResultFrame (keyOf : Text → Text) (n : Node) (r : Result) : Node :=
  match n.pending.get? (keyOf r.conn, r.sid) with
  | none => n
  | some i =>
      let popped := { n with pending := n.pending.pop (keyOf r.conn, r.sid) }
      match n.calls[i]? with
      | none => popped
      | some c => if c.fut = .waiting then popped.setCall i { c with fut := .resolved r.body.answer } else popped

/-- The oldest reply on the connection is read. -/
def deliver (keyOf : Text → Text) (n : Node) (conn : Text) : Option Node :=
  match n.replies.find? (·.conn = conn) with
  | none => none
  | some r => some ({ n with replies := n.replies.eraseP (·.conn = conn) }.handlePowerResultFrame keyOf r)

/-- What is in flight on a connection goes with it. -/
def lose (n : Node) (conn : Text) : Node :=
  { n with requests := n.requests.filter (·.conn ≠ conn), replies := n.replies.filter (·.conn ≠ conn) }

end Node

inductive Act
  | relay (portName ref : Text) (on : Bool) (claims : List Text) (clientId conn : Option Text)
  | sent (call : Nat) (ok : Bool)
  | expire (call : Nat)
  | wake (call : Nat)
  | cancel (call : Nat)
  | answer (conn : Text) (body : Option ResultBody)
  | deliver (conn : Text)
  | lose (conn : Text)
  /-- Advertisements and attaches change the proxies and their sessions. -/
  | proxies (proxies : Dict Text Proxy)

def Node.step (keyOf : Text → Text) (n : Node) : Act → Option Node
  | .relay portName ref on claims clientId conn => n.relayPowerSwitch keyOf portName ref on claims clientId conn
  | .sent i ok => n.sent i ok
  | .expire i => n.expire i
  | .wake i => n.wake i
  | .cancel i => n.cancel i
  | .answer conn body => n.answer conn body
  | .deliver conn => n.deliver keyOf conn
  | .lose conn => some (n.lose conn)
  | .proxies proxies => some { n with proxies := proxies }

/-! ## Overlaps -/

/-- The relay has not returned. -/
def Call.Active (c : Call) : Prop := ∀ o, c.phase ≠ .returned o

instance Call.Active.decidable (c : Call) : Decidable c.Active :=
  match h : c.phase with
  | .returned o => isFalse fun hc => hc o h
  | .sending | .waiting => isTrue fun o => by rw [h]; simp

def Switch.slot (keyOf : Text → Text) (q : Switch) : Slot := (keyOf q.conn, q.sid)

def Result.slot (keyOf : Text → Text) (r : Result) : Slot := (keyOf r.conn, r.sid)

/-- No relay on the slot is under way, and none that has returned may still be answered. -/
def Node.Quiet (keyOf : Text → Text) (n : Node) (slot : Slot) : Prop :=
  (∀ c ∈ n.calls, c.slot = some slot → ¬ c.Active) ∧ (∀ q ∈ n.requests, q.slot keyOf ≠ slot) ∧
    ∀ r ∈ n.replies, r.slot keyOf ≠ slot

instance Node.Quiet.decidable (keyOf : Text → Text) (n : Node) (slot : Slot) : Decidable (n.Quiet keyOf slot) :=
  inferInstanceAs (Decidable (_ ∧ _ ∧ _))

/-- A relay with the anchor overlaps no other one. -/
def Node.QuietAt (keyOf : Text → Text) (n : Node) : Except Refusal (Slot × Text) → Prop
  | .error _ => True
  | .ok (slot, _) => n.Quiet keyOf slot

instance Node.QuietAt.decidable (keyOf : Text → Text) (n : Node) : (r : Except Refusal (Slot × Text)) → Decidable (n.QuietAt keyOf r)
  | .error _ => isTrue trivial
  | .ok (slot, _) => inferInstanceAs (Decidable (n.Quiet keyOf slot))

/-- A relay starts only where no other one overlaps it. -/
def Node.Clear (keyOf : Text → Text) (n : Node) : Act → Prop
  | .relay portName ref _ _ clientId _ => n.QuietAt keyOf (n.powerSwitchAnchor portName ref clientId)
  | _ => True

instance Node.Clear.decidable (keyOf : Text → Text) (n : Node) : (a : Act) → Decidable (n.Clear keyOf a)
  | .relay portName ref _ _ clientId _ => inferInstanceAs (Decidable (n.QuietAt keyOf (n.powerSwitchAnchor portName ref clientId)))
  | .sent .. | .expire _ | .wake _ | .cancel _ | .answer .. | .deliver _ | .lose _ | .proxies _ => isTrue trivial

/-- Each relay that returned an answer returned what its own frame was answered. -/
def Node.Matched (n : Node) : Prop :=
  ∀ i c a, n.calls[i]? = some c → c.phase = .returned (.answered a) → ∃ body, (i, body) ∈ n.answers ∧ a = body.answer

/-- What is pending stays so, unless its own relay has its reply or has given up. -/
def Node.Keeps (n n' : Node) : Prop :=
  ∀ slot i, n.pending.get? slot = some i → n'.pending.get? slot = some i ∨
    ∃ c, n'.calls[i]? = some c ∧ (¬ c.Active ∨ c.fut ≠ .waiting)

end OpenMux.Power
