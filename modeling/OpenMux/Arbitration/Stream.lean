import OpenMux.Arbitration.Link

/-!
# One stream of the link

What a stream sees of the two nodes and of the frames in flight, and which mode the record of its client is going to have.
The conditions under which both sides end up with one mode are stated for each step over the streams that it is about.
-/

/-- Asks for the slot. -/
def OpenMux.Origin.FedrwAction.Asks : OpenMux.Origin.FedrwAction → Prop
  | .request | .take _ | .force => True
  | .release | .unknown => False

namespace OpenMux.Arbitration

open Py Federation Origin Streams

/-- A frame of the stream. -/
inductive StreamFrame
  | openStream
  | fedrw (action : FedrwAction)
deriving DecidableEq

/-- The link as one stream sees it. `owed` says that a take has demoted the mirror and has yet to tell. -/
structure StreamView where
  session : Bool := false
  record : Bool := false
  opened : Bool := false
  mirror : Option Mode := none
  frames : List StreamFrame := []
  acks : List Mode := []
  requests : List Request := []
  pending : Option Nat := none
  arbitrating : Bool := false
  owed : Bool := false
deriving DecidableEq

/-- Asks the origin for the slot. -/
def Request.Asks (r : Request) : Prop := r.stage ≠ .release

instance (r : Request) : Decidable r.Asks := inferInstanceAs (Decidable (_ ≠ _))

instance : DecidablePred FedrwAction.Asks
  | .request | .take _ | .force => isTrue trivial
  | .release | .unknown => isFalse id

namespace StreamView

/-- The FEDRW frames in flight. -/
def actions (v : StreamView) : List FedrwAction :=
  v.frames.filterMap fun
    | .fedrw a => some a
    | .openStream => none

/-- Some request for the slot waits for its reply. -/
def awaiting (v : StreamView) : Bool := v.requests.any fun r => r.Asks ∧ r.fut = .pending

/-- Some request was granted and has not been applied. -/
def granted (v : StreamView) : Bool := v.requests.any fun r => r.Asks ∧ r.fut = .done .readWrite

/-- A request for the slot has reached the origin, or is on its way there. -/
def asked (v : StreamView) : Bool := v.arbitrating || v.actions.any (decide ·.Asks)

/-- The record will be read-write once the acks in flight are read. -/
def expects (v : StreamView) : Bool :=
  match v.acks with
  | [] => v.record || v.granted
  | [reply] => v.awaiting && (reply = .readWrite || v.record)
  | _ => false

/-- No request waits, and nothing is in flight. -/
def Clear (v : StreamView) : Prop := v.requests = [] ∧ v.actions = [] ∧ v.acks = []

/-- The mirror may be told that it was demoted. -/
def Tellable (v : StreamView) : Prop := v.mirror ≠ some .readWrite ∧ v.asked = false

instance (v : StreamView) : Decidable v.Clear := inferInstanceAs (Decidable (_ ∧ _))

instance (v : StreamView) : Decidable v.Tellable := inferInstanceAs (Decidable (_ ∧ _))

end StreamView

/-- The mode of the client's first record. -/
def modeOf (p : Port) (clientId : Text) : Option Mode := (p.connectedClients.find? (·.clientId = clientId)).map (·.mode)

def Frame.forStream (sid : StreamId) : Frame → Option StreamFrame
  | .openStream s => if s = sid then some .openStream else none
  | .fedrw s a => if s = sid then some (.fedrw a) else none

namespace Link

variable (peerKey : Text)

/-- The client of the stream is read-write on the proxy. -/
def record (n : Requester) (sid : StreamId) : Bool := (n.localClient sid).any n.proxy.clientHasWrite

/-- Some take of a client of the origin has yet to tell the mirror of its demotion. -/
def owed (n : Arbiter) (sid : StreamId) : Bool :=
  n.transfers.any fun t => t.kind ≠ .peer ∧ t.victim = Arbiter.mirror peerKey sid

def view (s : Link) (sid : StreamId) : StreamView where
  session := (s.requester.localClient sid).isSome
  record := record s.requester sid
  opened := s.arbiter.opened.contains sid
  mirror := modeOf s.arbiter.port (Arbiter.mirror peerKey sid)
  frames := s.toOrigin.filterMap (Frame.forStream sid)
  acks := (s.toRequester.filter (·.sid = sid)).map (·.mode)
  requests := s.requester.requests.filter (·.sid = sid)
  pending := s.requester.fedrwPending.get? sid
  arbitrating := s.arbiter.arbitrating.any (·.1 = sid)
  owed := owed peerKey s.arbiter sid

/-- If the id is the mirror of an open stream, the stream meets `P`. -/
def OfMirror (s : Link) (clientId : Text) (P : StreamView → Prop) : Prop :=
  ∀ sid ∈ s.arbiter.opened, Arbiter.mirror peerKey sid = clientId → P (s.view peerKey sid)

instance (s : Link) (clientId : Text) (P : StreamView → Prop) [DecidablePred P] : Decidable (s.OfMirror peerKey clientId P) :=
  inferInstanceAs (Decidable (∀ sid ∈ _, _ → _))

/-- If the client has a stream, it meets `P`. -/
def OfClient (s : Link) (clientId : Text) (P : StreamView → Prop) : Prop :=
  ∀ sid, s.requester.clientSessions.get? clientId = some sid → P (s.view peerKey sid)

instance (s : Link) (clientId : Text) (P : StreamView → Prop) [DecidablePred P] : Decidable (s.OfClient peerKey clientId P) :=
  match h : s.requester.clientSessions.get? clientId with
  | none => isTrue fun sid hs => by rw [h] at hs; cases hs
  | some sid => decidable_of_iff (P (s.view peerKey sid)) ⟨fun hp sid' hs => by rw [h] at hs; cases hs; exact hp, fun hp => hp sid h⟩

/-- A victim that is the mirror of a stream is told while no request of that stream is under way. -/
def Tells (s : Link) (victim : Option Client) : Prop :=
  ∀ c ∈ victim, s.OfMirror peerKey c.clientId fun v => v.asked = false

instance (s : Link) (victim : Option Client) : Decidable (s.Tells peerKey victim) :=
  inferInstanceAs (Decidable (∀ c ∈ victim, _))

/-- A take that fails leaves the mirror of its victim in the mode that the record of its client is going to have. -/
def Restores (s : Link) (taker victim : Text) (mayDrive : Bool) : Prop :=
  ¬ (mayDrive ∧ (s.arbiter.port.promoteClient taker).2) →
    s.OfMirror peerKey victim fun v => ((s.arbiter.port.promoteClient victim).2 ∨ v.mirror = some .readWrite) ↔ v.expects

instance (s : Link) (taker victim : Text) (mayDrive : Bool) : Decidable (s.Restores peerKey taker victim mayDrive) :=
  inferInstanceAs (Decidable (_ → _))

/-- What a resumed coroutine needs: the proxy has room for a client that was granted the slot, and a client whose TAKE was
granted still may drive, with no notice under way to it. -/
def Applies (s : Link) (r : Request) (mayDrive : Bool) : Prop :=
  r.fut = .done .readWrite → match r.stage with
    | .attach | .promote => (s.requester.proxy.promoteClient r.clientId).2
    | .take => mayDrive ∧ (s.view peerKey r.sid).acks = []
    | .release => True

instance (s : Link) (r : Request) (mayDrive : Bool) : Decidable (s.Applies peerKey r mayDrive) :=
  match h : r.stage with
  | .attach | .promote => decidable_of_iff (r.fut = .done .readWrite → (s.requester.proxy.promoteClient r.clientId).2)
      (by rw [Applies, h])
  | .take => decidable_of_iff (r.fut = .done .readWrite → mayDrive ∧ (s.view peerKey r.sid).acks = []) (by rw [Applies, h])
  | .release => decidable_of_iff (r.fut = .done .readWrite → True) (by rw [Applies, h])

/-- The origin's answer to the frame tells nobody whose request is under way, and resets no read-write mirror. -/
def Handles (s : Link) : Frame → Prop
  | .openStream sid => (s.view peerKey sid).mirror ≠ some .readWrite
  | .fedrw sid (.take spec) => s.Tells peerKey (resolveFedrwTakeTarget s.arbiter.port (peerKey, (sid : Int)) spec)
  | .fedrw sid .force => s.Tells peerKey (resolveFedrwTakeTarget s.arbiter.port (peerKey, (sid : Int)) .latest)
  | .fedrw _ _ => True

instance (s : Link) : DecidablePred (s.Handles peerKey)
  | .openStream _ => inferInstanceAs (Decidable (_ ≠ _))
  | .fedrw _ (.take _) => inferInstanceAs (Decidable (s.Tells peerKey _))
  | .fedrw _ .force => inferInstanceAs (Decidable (s.Tells peerKey _))
  | .fedrw _ .request | .fedrw _ .release | .fedrw _ .unknown => isTrue trivial

/-- The condition on a step. -/
def Meets (s : Link) : Act → Prop
  | .promote clientId | .take clientId _ => s.OfClient peerKey clientId StreamView.Clear
  | .demote clientId => s.OfClient peerKey clientId fun v => v.awaiting = false ∧ v.granted = false
  | .expire sid id =>
      (∃ r ∈ s.requester.requests, r.Is sid id ∧ ¬ r.Asks) ∨
        ((s.view peerKey sid).acks.head? = some .readOnly ∧ (s.view peerKey sid).mirror ≠ some .readWrite)
  | .resume sid id mayDrive =>
      ∀ r ∈ s.requester.requests.find? (fun r => r.Is sid id ∧ r.fut ≠ .pending), s.Applies peerKey r mayDrive
  | .readAck => ∀ a ∈ s.toRequester.head?, a.mode = .readOnly → (s.view peerKey a.sid).granted = false
  | .readFrame _ => ∀ f ∈ s.toOrigin.head?, s.Handles peerKey f
  | .endArbitration => ∀ a ∈ s.arbiter.arbitrating, s.Restores peerKey (Arbiter.mirror peerKey a.1) a.2 true
  | .peerTake slot spec => s.Tells peerKey (resolveFedrwTakeTarget s.arbiter.port slot spec)
  | .transferStep i mayDrive => ∀ t ∈ s.arbiter.transfers[i]?,
      s.Restores peerKey t.taker t.victim (mayDrive || t.kind = .peer)
  | .transferNotice i => ∀ t ∈ s.arbiter.transfers[i]?, s.OfMirror peerKey t.victim StreamView.Tellable
  | .connect _ _ _ _ | .reopen _ | .setProxyCapacity _ | .localTake _ _ | .port _ => True

instance (s : Link) : DecidablePred (s.Meets peerKey)
  | .promote clientId | .take clientId _ => inferInstanceAs (Decidable (s.OfClient peerKey clientId StreamView.Clear))
  | .demote clientId =>
      inferInstanceAs (Decidable (s.OfClient peerKey clientId fun v => v.awaiting = false ∧ v.granted = false))
  | .expire _ _ => inferInstanceAs (Decidable (_ ∨ _))
  | .resume _ _ _ | .readAck | .readFrame _ | .endArbitration | .transferStep _ _ | .transferNotice _ =>
      inferInstanceAs (Decidable (∀ _ ∈ (_ : Option _), _))
  | .peerTake _ _ => inferInstanceAs (Decidable (s.Tells peerKey _))
  | .connect _ _ _ _ | .reopen _ | .setProxyCapacity _ | .localTake _ _ | .port _ => isTrue trivial

end Link

end OpenMux.Arbitration
