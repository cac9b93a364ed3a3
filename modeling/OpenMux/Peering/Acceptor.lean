import OpenMux.Lib.Dict
import OpenMux.Lib.PyText

/-!
# Authentication of MuxCon connections

The records of the connections of a node, accepted and dialled, with what the handshakes and the AUTH control frames do to them.
A step is one handshake or one frame; what it sends is left out. Nonces, keys and signatures are abstract. The close that
follows a failed answer is a step of its own, as other tasks may run before it.
-/

namespace OpenMux.Peering

open Py

/-! ## HELLO -/

/-- `str.split()`. -/
def words (t : Text) : List Text :=
  (split ' ' t.length (t.map fun c => if isSpace c then ' ' else c)).filter (· ≠ [])

/-- What is kept of a HELLO line. -/
structure MuxConHandshake where
  serverId : Option Text := none
  instanceId : Option Text := none
  pkId : Option Text := none
deriving DecidableEq

/-- `value or None`. -/
def orNone (t : Text) : Option Text := if t = [] then none else some t

/-- The value of a `NAME=value` part. -/
def valueOf (name part : Text) : Option Text := if name.isPrefixOf part then some (part.drop name.length) else none

namespace MuxConHandshake

def addPart (h : MuxConHandshake) (part : Text) : MuxConHandshake :=
  if (valueOf "TYPE=".toList part).isSome || (valueOf "CAPS=".toList part).isSome then h
  else
    match valueOf "ID=".toList part, valueOf "INST=".toList part, valueOf "PKID=".toList part with
    | some v, _, _ => { h with serverId := orNone v }
    | none, some v, _ => { h with instanceId := orNone v }
    | none, none, some v => { h with pkId := orNone v }
    | none, none, none => h

/-- `parse`. -/
def parse (line : Text) : Option MuxConHandshake :=
  match words line with
  | hello :: _ :: parts => if hello = "HELLO".toList then some (parts.foldl addPart {}) else none
  | _ => none

end MuxConHandshake

/-! ## Connections -/

inductive Role
  | server
  | client
deriving DecidableEq

/-- A pending challenge. -/
structure AuthState (ν : Type) where
  keyId : Text
  nonce : ν
  expiresAt : Nat
deriving DecidableEq

/-- The record of a connection; `socket` is the connection it is of. -/
structure Conn (ν : Type) where
  socket : Nat
  role : Role
  pkId : Option Text
  authOk : Bool
  authState : Option (AuthState ν) := none
deriving DecidableEq

/-- The challenge that was issued on a connection. -/
structure Issue (ν : Type) where
  socket : Nat
  nonce : ν
  time : Nat
deriving DecidableEq

/-- The node. `issued` lists the challenges and `enabled` the connections that were authenticated by an answer, with the
nonce. -/
structure Node (ν κ : Type) where
  time : Nat := 0
  authRequired : Bool := true
  authPubkeys : Dict Text κ := ∅
  connections : Dict Text (Conn ν) := ∅
  sockets : List Nat := []
  closing : List Text := []
  issued : List (Issue ν) := []
  enabled : List (Nat × ν) := []

inductive Act (ν κ : Type)
  /-- `_accept_client` reads a first line; `peer` is the address of the peer, if it is known. -/
  | accept (socket : Nat) (peer : Option (Text × Text)) (line : Text) (nonce : ν)
  /-- An initiator ends its handshake. -/
  | dial (socket : Nat) (host port : Text)
  | frame (connId frameType payload : Text)
  | close (connId : Text)
  | loadPublicKeys (keys : Dict Text κ)
  | wait (time : Nat)

def second : Nat := 1000000

namespace Node

variable {ν κ : Type} (verify : κ → Text → ν → Bool)

/-- Whole seconds of the clock, as in a connection id. -/
def seconds (s : Node ν κ) : Text := decimal (s.time / second)

def inId (s : Node ν κ) : Option (Text × Text) → Text
  | some (ip, port) => "in:".toList ++ ip ++ ':' :: (port ++ ':' :: s.seconds)
  | none => "in:unknown:".toList ++ s.seconds

def outId (s : Node ν κ) (host port : Text) : Text := "out:".toList ++ host ++ ':' :: (port ++ ':' :: s.seconds)

def setConn (s : Node ν κ) (connId : Text) (c : Conn ν) : Node ν κ := { s with connections := s.connections.set connId c }

/-! ## Handshakes -/

/-- `_perform_server_handshake`: the record and the challenge. -/
def performServerHandshake (s : Node ν κ) (socket : Nat) (connId line : Text) (nonce : ν) : Node ν κ :=
  match MuxConHandshake.parse line with
  | none => s
  | some hs =>
      let c : Conn ν := { socket := socket, role := .server, pkId := hs.pkId, authOk := !s.authRequired }
      let s' := s.setConn connId c
      if s.authRequired then
        match hs.pkId with
        | none => { s' with closing := connId :: s'.closing }
        | some pkid =>
            if (s.authPubkeys.get? pkid).isNone then { s' with closing := connId :: s'.closing }
            else { s'.setConn connId { c with authState := some ⟨pkid, nonce, s.time + 30 * second⟩ } with
              issued := s'.issued ++ [⟨socket, nonce, s.time⟩] }
      else s'

/-- `_perform_client_handshake`. -/
def performClientHandshake (s : Node ν κ) (socket : Nat) (connId : Text) : Node ν κ :=
  s.setConn connId { socket := socket, role := .client, pkId := none, authOk := false }

/-! ## Control frames -/

/-- The key id and the signature of an `AUTH:PK:RESPONSE`. -/
def authResponse (payload : Text) : Option (Text × Text) :=
  match split ':' payload.length payload with
  | _ :: pk :: response :: keyId :: sig :: _ =>
      if pk = "PK".toList ∧ response = "RESPONSE".toList then some (keyId, sig) else none
  | _ => none

/-- The payload is an `AUTH:PK:CHALLENGE`, which is answered without a change here. -/
def isAuthChallenge (payload : Text) : Bool :=
  match split ':' payload.length payload with
  | _ :: pk :: challenge :: _ :: _ :: _ => pk = "PK".toList && challenge = "CHALLENGE".toList
  | _ => false

/-- `_ctl_auth_response` with `_ctl_verify_auth_response`. -/
def ctlAuthResponse (s : Node ν κ) (connId keyId sig : Text) : Node ν κ :=
  match s.connections.get? connId with
  | none => s
  | some c =>
      match c.authState with
      | none => s
      | some st =>
          if st.keyId ≠ keyId then s
          else if st.expiresAt < s.time then { s with closing := connId :: s.closing }
          else
            match s.authPubkeys.get? keyId with
            | none => { s with closing := connId :: s.closing }
            | some pub =>
                if verify pub sig st.nonce then
                  { s.setConn connId { c with authOk := true, authState := none } with
                    enabled := s.enabled ++ [(c.socket, st.nonce)] }
                else { s with closing := connId :: s.closing }

/-- `_ctl_auth_ok`. -/
def ctlAuthOk (s : Node ν κ) (connId : Text) : Node ν κ :=
  match s.connections.get? connId with
  | none => s
  | some c =>
      match c.role with
      | .client => s.setConn connId { c with authOk := true }
      | .server => { s with closing := connId :: s.closing }

/-- `_process_control_command`. The commands that are not about authentication do not change what is kept here. -/
def processControlCommand (s : Node ν κ) (connId payload : Text) : Node ν κ :=
  let payload := strip payload
  if "AUTH:".toList.isPrefixOf payload then
    if isAuthChallenge payload then s
    else
      match authResponse payload with
      | some (keyId, sig) => s.ctlAuthResponse verify connId keyId sig
      | none =>
          if payload = "AUTH:OK".toList then s.ctlAuthOk connId
          else if "AUTH:ERROR".toList.isPrefixOf payload then { s with closing := connId :: s.closing }
          else s
  else s

/-- The read loop: control and heartbeat frames are commands, and other frames leave the records as they are. -/
def readFrame (s : Node ν κ) (connId frameType payload : Text) : Node ν κ :=
  if frameType = ['C'] ∨ frameType = ['H', 'B'] then s.processControlCommand verify connId payload else s

def step (s : Node ν κ) : Act ν κ → Option (Node ν κ)
  | .accept socket peer line nonce =>
      if socket ∈ s.sockets then none
      else some (({ s with sockets := socket :: s.sockets } : Node ν κ).performServerHandshake socket (s.inId peer) line nonce)
  | .dial socket host port =>
      if socket ∈ s.sockets then none
      else some (({ s with sockets := socket :: s.sockets } : Node ν κ).performClientHandshake socket (s.outId host port))
  | .frame connId frameType payload => some (s.readFrame verify connId frameType payload)
  | .close connId => some { s with connections := s.connections.pop connId, closing := s.closing.erase connId }
  | .loadPublicKeys keys => some { s with authPubkeys := keys }
  | .wait time => some { s with time := s.time + time }

/-- The connection is an accepted one that counts as authenticated. -/
def Accepted (s : Node ν κ) (connId : Text) (socket : Nat) : Prop :=
  ∃ c, s.connections.get? connId = some c ∧ c.socket = socket ∧ c.role = .server ∧ c.authOk = true

/-- The step handles an answer that proves the key which the HELLO of the connection named: the signature verifies under the key
that is registered with that id, over the nonce that was issued on the connection, in time and for the first time. -/
def Proves (s : Node ν κ) (connId : Text) (socket : Nat) (a : Act ν κ) : Prop :=
  ∃ c frameType payload keyId sig pub i, a = .frame connId frameType payload ∧ (frameType = ['C'] ∨ frameType = ['H', 'B']) ∧
    authResponse (strip payload) = some (keyId, sig) ∧ s.connections.get? connId = some c ∧ c.socket = socket ∧
    c.pkId = some keyId ∧ s.authPubkeys.get? keyId = some pub ∧ i ∈ s.issued ∧ i.socket = socket ∧
    verify pub sig i.nonce = true ∧ s.time ≤ i.time + 30 * second ∧ ∀ n, (socket, n) ∉ s.enabled

end Node

end OpenMux.Peering
