import OpenMux.Login.AuthManager

/-!
# Logins of client connections

The challenge logins of the client listener, any number of connections over one auth manager. A step of a connection runs to
its next wait for a line. The record of a connection keeps the challenge that was sent on it, which the code only sends.
-/

namespace OpenMux.Login

open Py AuthManager

/-- A challenge as it was sent on a connection, when it was, and whether the configuration was reloaded since. -/
structure Sent (ν σ : Type) where
  challenge : Challenge ν σ
  issuedAt : Nat
  reloaded : Bool := false
deriving DecidableEq

/-- The challenge can still be answered. -/
def Sent.Live {ν σ : Type} (time : Nat) (sent : Sent ν σ) : Prop := time ≤ sent.challenge.expiresAt ∧ sent.reloaded = false

/-- A connection of the client listener: before its login line, at a challenge, or after the login, with the user if it was
accepted. -/
inductive Conn (ν κ : Type)
  | opened (address : Text)
  | password (username : Text) (srcIp : Option Text) (sent : Sent ν Text)
  | pubkey (username keyId : Text) (sent : Sent ν κ)
  | finished (username : Option Text)
deriving DecidableEq

/-- The password challenge a connection waits at, with its user. -/
def Conn.passwordWait {ν κ : Type} : Conn ν κ → Option (Text × Sent ν Text)
  | .password username _ sent => some (username, sent)
  | _ => none

/-- The public key challenge a connection waits at, with its user and key id. -/
def Conn.pubkeyWait {ν κ : Type} : Conn ν κ → Option ((Text × Text) × Sent ν κ)
  | .pubkey username keyId sent => some ((username, keyId), sent)
  | _ => none

/-- The nonce of the challenge a connection waits at. -/
def Conn.nonce {ν κ : Type} : Conn ν κ → Option ν
  | .password _ _ sent => some sent.challenge.nonceRaw
  | .pubkey _ _ sent => some sent.challenge.nonceRaw
  | _ => none

/-- A configuration is loaded under the challenge. -/
def Conn.reload {ν κ : Type} : Conn ν κ → Conn ν κ
  | .password username srcIp sent => .password username srcIp { sent with reloaded := true }
  | .pubkey username keyId sent => .pubkey username keyId { sent with reloaded := true }
  | c => c

/-- The listener. `accepted` lists the accepted answers: the connection and the nonce whose challenge was consumed. -/
structure Listener (ν κ : Type) where
  manager : AuthManager ν κ := {}
  conns : Dict Nat (Conn ν κ) := ∅
  drawn : List ν := []
  accepted : List (Nat × ν) := []

/-- The steps: those of a connection, reloads, the passing of time, and what other logins do to the failures. -/
inductive Act (ν : Type)
  | connect (c : Nat) (address : Text)
  | login (c : Nat) (line : Text) (nonce : ν)
  | answer (c : Nat) (line : Text)
  | leave (c : Nat)
  | wait (time : Nat)
  | updateConfig (users : List (Text × Option Text)) (publicKeys : List KeyRecord) (window threshold base : Option Nat)
  | updateSecurityPolicy (window threshold base : Option Nat)
  | askLocked (username : Text) (srcIp : Option Text)
  | failure (username : Text) (srcIp : Option Text)
  | success (username : Text) (srcIp : Option Text)

/-- The connection that takes the step. -/
def Act.conn {ν : Type} : Act ν → Option Nat
  | .connect c _ => some c
  | .login c _ _ => some c
  | .answer c _ => some c
  | .leave c => some c
  | _ => none

/-! ## Lines -/

def pkInit : Text := "AUTH:PK:INIT:".toList

def userHmac : Text := "AUTH:USER:HMAC:".toList

def pkResponse : Text := "AUTH:PK:RESPONSE:".toList

def hmacResponse : Text := "AUTH:RESPONSE:".toList

/-- The parts of a line; `split(":")` without a limit. -/
def parts (line : Text) : List Text := split ':' line.length line

/-- A login line: a challenge of either kind for a user. -/
inductive LoginLine
  | pubkey (username : Text) (keyId : Option Text)
  | hmac (username : Text)
deriving DecidableEq

/-- What a login line asks for; `none` for the logins without a challenge. -/
def loginLine (line : Text) : Option LoginLine :=
  if pkInit.isPrefixOf line then
    match parts line with
    | _ :: _ :: _ :: username :: keyId :: _ => some (.pubkey username (if keyId = [] then none else some keyId))
    | _ :: _ :: _ :: username :: _ => some (.pubkey username none)
    | _ => none
  else if userHmac.isPrefixOf line then
    match parts line with
    | _ :: _ :: _ :: username :: _ => some (.hmac username)
    | _ => none
  else none

/-- The key id and the signature of an answer to a public key challenge. -/
def pkAnswer (line : Text) : Option (Text × Text) :=
  if pkResponse.isPrefixOf line then
    match parts line with
    | _ :: _ :: _ :: keyId :: signature :: _ => some (keyId, signature)
    | _ => none
  else none

/-- The HMAC of an answer to a password challenge. -/
def hmacAnswer (line : Text) : Option Text :=
  if hmacResponse.isPrefixOf line then
    match parts line with
    | _ :: _ :: hmac :: _ => some hmac
    | _ => none
  else none

namespace Listener

variable {ν κ : Type} (crypto : Crypto ν κ)

/-! ## Logins -/

def setConn (s : Listener ν κ) (c : Nat) (conn : Conn ν κ) : Listener ν κ := { s with conns := s.conns.set c conn }

/-- `client.address[0]`: the first character of the address. -/
def srcIp (address : Text) : Option Text := address.head?.map fun c => [c]

/-- `_auth_pubkey` up to the response. -/
def authPubkey (s : Listener ν κ) (c : Nat) (username : Text) (keyId : Option Text) (nonce : ν) : Listener ν κ :=
  match s.manager.startPubkeyChallenge crypto username keyId nonce with
  | none => s.setConn c (.finished none)
  | some (keyId, manager) =>
      match manager.pkChallenges.get? (username, keyId) with
      | none => s.setConn c (.finished none)
      | some challenge => ({ s with manager := manager } : Listener ν κ).setConn c (.pubkey username keyId
          { challenge := challenge, issuedAt := s.manager.time })

/-- `_auth_hmac` up to the response. -/
def authHmac (s : Listener ν κ) (c : Nat) (address username : Text) (nonce : ν) : Listener ν κ :=
  let (locked, manager) := s.manager.isUserLocked username (srcIp address)
  let s : Listener ν κ := { s with manager := manager }
  if locked then s.setConn c (.finished none)
  else
    match s.manager.startPasswordHmacChallenge username nonce with
    | none => s.setConn c (.finished none)
    | some manager =>
        match manager.pwHmacChallenges.get? username with
        | none => s.setConn c (.finished none)
        | some challenge => ({ s with manager := manager } : Listener ν κ).setConn c
            (.password username (srcIp address) { challenge := challenge, issuedAt := s.manager.time })

/-- The end of a login; an accepted answer is listed with the nonce of the challenge it consumed. -/
def finish {σ : Type} (s : Listener ν κ) (c : Nat) (username : Text) (ok : Bool) (consumed : Option (Challenge ν σ)) : Listener ν κ :=
  if ok then
    ({ s with accepted := s.accepted ++ (consumed.map fun e => (c, e.nonceRaw)).toList } : Listener ν κ).setConn c
      (.finished (some username))
  else s.setConn c (.finished none)

/-- `_auth_pubkey` from the response on. -/
def answerPubkey (s : Listener ν κ) (c : Nat) (username line : Text) : Listener ν κ :=
  match pkAnswer line with
  | none => s.setConn c (.finished none)
  | some (keyId, signature) =>
      let (ok, manager) := s.manager.verifyPubkeyResponse crypto username keyId signature
      ({ s with manager := manager } : Listener ν κ).finish c username ok (s.manager.pkChallenges.get? (username, keyId))

/-- `_auth_hmac` from the response on. -/
def answerHmac (s : Listener ν κ) (c : Nat) (username : Text) (srcIp : Option Text) (line : Text) : Listener ν κ :=
  match hmacAnswer line with
  | none => s.setConn c (.finished none)
  | some hmac =>
      let (ok, manager) := s.manager.verifyPasswordHmac crypto username hmac srcIp
      ({ s with manager := manager } : Listener ν κ).finish c username ok (s.manager.pwHmacChallenges.get? username)

/-! ## Steps -/

variable [DecidableEq ν]

/-- One step. Connections have new ids, and a nonce is drawn once. -/
def step (s : Listener ν κ) : Act ν → Option (Listener ν κ)
  | .connect c address => if s.conns.get? c = none then some (s.setConn c (.opened address)) else none
  | .login c line nonce =>
      match s.conns.get? c with
      | some (.opened address) =>
          if nonce ∈ s.drawn then none
          else
            let s : Listener ν κ := { s with drawn := nonce :: s.drawn }
            match loginLine line with
            | some (.pubkey username keyId) => some (s.authPubkey crypto c username keyId nonce)
            | some (.hmac username) => some (s.authHmac c address username nonce)
            | none => some (s.setConn c (.finished none))
      | _ => none
  | .answer c line =>
      match s.conns.get? c with
      | some (.pubkey username _ _) => some (s.answerPubkey crypto c username line)
      | some (.password username srcIp _) => some (s.answerHmac crypto c username srcIp line)
      | _ => none
  | .leave c =>
      match s.conns.get? c with
      | none | some (.finished _) => none
      | some _ => some (s.setConn c (.finished none))
  | .wait time => some { s with manager := { s.manager with time := s.manager.time + time } }
  | .updateConfig users publicKeys window threshold base => some { s with
      manager := s.manager.updateConfig users publicKeys window threshold base
      conns := s.conns.mapValues fun _ => Conn.reload }
  | .updateSecurityPolicy window threshold base =>
      some { s with manager := s.manager.applySecurityPolicy window threshold base }
  | .askLocked username srcIp => some { s with manager := (s.manager.isUserLocked username srcIp).2 }
  | .failure username srcIp => some { s with manager := s.manager.registerAuthFailure username srcIp }
  | .success username srcIp => some { s with manager := s.manager.clearAuthFailures username srcIp }

/-- A listener that starts with a configuration. -/
def start (time : Nat) (users : List (Text × Option Text)) (publicKeys : List KeyRecord) (window threshold base : Option Nat) :
    Listener ν κ where
  manager := ({ time := time, users := users, publicKeys := publicKeys } : AuthManager ν κ).applySecurityPolicy window threshold base

/-! ## What is due on a connection -/

/-- The line is a valid answer to the challenge that was sent on the connection, within 30 s of its issue and with no reload in
between. -/
def Correct (s : Listener ν κ) (c : Nat) (line : Text) : Prop :=
  match s.conns.get? c with
  | some (.password _ _ sent) => (∃ hmac, hmacAnswer line = some hmac ∧
      crypto.hmacMatches sent.challenge.secret sent.challenge.nonceRaw hmac = true) ∧
      s.manager.time ≤ sent.issuedAt + 30 * second ∧ sent.reloaded = false
  | some (.pubkey _ keyId sent) => (∃ signature, pkAnswer line = some (keyId, signature) ∧
      crypto.verify sent.challenge.secret sent.challenge.nonceRaw signature = true) ∧
      s.manager.time ≤ sent.issuedAt + 30 * second ∧ sent.reloaded = false
  | _ => False

/-- The user of a password login is locked out. The lockout counts passwords, and no other login asks for it. -/
def LockedOut (s : Listener ν κ) (c : Nat) : Prop :=
  match s.conns.get? c with
  | some (.password username srcIp _) => s.manager.Locked username srcIp
  | _ => False

/-- The nonce that was sent on a connection. -/
def nonceSent (s : Listener ν κ) (c : Nat) : Option ν := (s.conns.get? c).bind Conn.nonce

/-- The connection is logged in. -/
def LoggedIn (s : Listener ν κ) (c : Nat) : Prop := ∃ username, s.conns.get? c = some (.finished (some username))

/-- What an answer leads to: a login exactly when it is correct and the user is not locked out, by the nonce that was sent on
the connection. -/
structure Answered (s : Listener ν κ) (c : Nat) (line : Text) (s' : Listener ν κ) : Prop where
  loggedIn : s'.LoggedIn c ↔ s.Correct crypto c line ∧ ¬ s.LockedOut c
  accepted : s'.LoggedIn c → ∃ n, s.nonceSent c = some n ∧ s'.accepted = s.accepted ++ [(c, n)]
  rejected : ¬ s'.LoggedIn c → s'.accepted = s.accepted

/-! ## Logins that do not meet -/

def passwordWait (s : Listener ν κ) (c : Nat) : Option (Text × Sent ν Text) := (s.conns.get? c).bind Conn.passwordWait

def pubkeyWait (s : Listener ν κ) (c : Nat) : Option ((Text × Text) × Sent ν κ) := (s.conns.get? c).bind Conn.pubkeyWait

/-- No other connection can still answer a challenge that is kept where a login line puts one. -/
def LoginApart (s : Listener ν κ) (c : Nat) (line : Text) : Prop :=
  match loginLine line with
  | some (.hmac username) => (∀ address, s.conns.get? c = some (.opened address) → ¬ s.manager.Locked username (srcIp address)) →
      ∀ c' sent, s.passwordWait c' = some (username, sent) → ¬ sent.Live s.manager.time
  | some (.pubkey username keyId) => ∀ r, s.manager.resolvePublicKeyRecord username keyId = some r →
      crypto.loadEd25519PublicKey r ≠ none →
        ∀ c' sent, s.pubkeyWait c' = some ((username, effectiveKeyId r), sent) → ¬ sent.Live s.manager.time
  | none => True

/-- An answer does not use up the challenge of another connection: it passes no such challenge, and a password answer, which
takes the challenge away in any case, meets none that another connection waits at. -/
def AnswerApart (s : Listener ν κ) (c : Nat) (line : Text) : Prop :=
  match s.conns.get? c with
  | some (.password username srcIp sent) => ¬ s.manager.Locked username srcIp → ∀ hmac, hmacAnswer line = some hmac →
      ∀ e, s.manager.pwHmacChallenges.get? username = some e → s.manager.time ≤ e.expiresAt →
        e.nonceRaw ≠ sent.challenge.nonceRaw →
          crypto.hmacMatches e.secret e.nonceRaw hmac = false ∧ ∀ c', s.nonceSent c' ≠ some e.nonceRaw
  | some (.pubkey username _ sent) => ∀ keyId signature, pkAnswer line = some (keyId, signature) →
      ∀ e, s.manager.pkChallenges.get? (username, keyId) = some e → s.manager.time ≤ e.expiresAt →
        e.nonceRaw ≠ sent.challenge.nonceRaw → crypto.verify e.secret e.nonceRaw signature = false
  | _ => True

/-- The step keeps the logins of different connections apart. -/
def Apart (s : Listener ν κ) : Act ν → Prop
  | .login c line _ => s.LoginApart crypto c line
  | .answer c line => s.AnswerApart crypto c line
  | _ => True

end Listener

end OpenMux.Login
