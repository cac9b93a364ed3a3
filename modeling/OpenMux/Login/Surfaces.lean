import Mathlib
import OpenMux.Login.Connections

/-!
# Password surfaces

The logins of the web form, HTTP Basic, telnet, SSH and the client listener over one auth manager. A step of a telnet login
runs to its next wait for a line. The hash of a password, the external helper, the permissions of an account and the match of
a public key are parameters. The tries are listed with what the lock was as they were made, which the code does not keep.
-/

namespace OpenMux.Login

open Py AuthManager

/-- `parse_login` at the first single colon. -/
def cutColon : Text → Option (Text × Text)
  | ':' :: ':' :: t => (cutColon t).map fun (p, q) => (':' :: ':' :: p, q)
  | ':' :: t => some ([], t)
  | c :: t => (cutColon t).map fun (p, q) => (c :: p, q)
  | [] => none

/-- `parse_login`: the username and the port descriptor that is embedded in a login line. -/
def parseLogin (line : Text) : Text × Option Text :=
  let line := strip line
  match split '+' 1 line with
  | [username, port] => (strip username, some (strip port))
  | _ =>
      match cutColon line with
      | some (username, port) => (strip username, some (strip port))
      | none => (line, none)

example : parseLogin "alice:node::tty0 ".toList = ("alice".toList, some "node::tty0".toList) := by decide

/-- What stands behind the passwords. -/
structure Checks where
  verifyPassword : Text → Text → Bool
  externalAuthenticate : Nat → Text → Text → Bool
  permitted : Nat → Text → Bool
  matchSshPubkey : List KeyRecord → Text → Text → Bool

/-- Where credentials are tried. A public key of SSH is no password, but it clears the failures as a password does. -/
inductive Surface
  | form
  | basic
  | telnet
  | ssh
  | publicKey
  | client
deriving DecidableEq

/-- Credentials that were tried: `asked` is what `is_user_locked` answered for them before, if it was asked, and `locked` says
whether the lock was in force as they were checked. -/
structure Try where
  surface : Surface
  pair : Text × Text
  time : Nat
  asked : Option Bool
  locked : Bool
  ok : Bool
deriving DecidableEq

/-- A telnet login. -/
inductive TelnetLogin
  | login (peerIp : Text) (attempts : Nat)
  | password (peerIp : Text) (attempts : Nat) (username : Text) (asked : Bool)
  | finished (username : Option Text)
deriving DecidableEq

/-- An SSH connection. -/
structure SshLogin where
  peerIp : Text
  pendingUsername : Text := []
  pwAttempts : Nat := 0
deriving DecidableEq

/-- `_AUTH_LOGIN_MAX_ATTEMPTS` of telnet and `_AUTH_MAX_ATTEMPTS` of SSH. -/
def authMaxAttempts : Nat := 3

/-- The surfaces over one auth manager, which is that of the client listener. `tries` has the newest first. -/
structure LoginServer (ν κ : Type) where
  listener : Listener ν κ := {}
  authCache : Dict Text Nat := ∅
  telnet : Dict Nat TelnetLogin := ∅
  ssh : Dict Nat SshLogin := ∅
  tries : List Try := []

/-- The steps; those of the client listener are the ones of its connections. -/
inductive LoginAct (ν : Type)
  | form (username password : Text) (clientIp : Option Text)
  | basic (username password : Text) (remote : Option Text)
  | telnetConnect (t : Nat) (peerIp : Text)
  | telnetLine (t : Nat) (line : Text)
  | telnetLeave (t : Nat)
  | sshConnect (c : Nat) (peerIp : Text)
  | sshBeginAuth (c : Nat) (username : Text)
  | sshPassword (c : Nat) (password : Text)
  | sshPublicKey (c : Nat) (key : Text)
  | client (a : Act ν)
  | askLocked (username : Text) (srcIp : Option Text)
  | wait (time : Nat)
  | updateConfig (users : List (Text × Option Text)) (publicKeys : List KeyRecord)

namespace LoginServer

variable {ν κ : Type} (crypto : Crypto ν κ) (checks : Checks)

abbrev manager (s : LoginServer ν κ) : AuthManager ν κ := s.listener.manager

def setManager (s : LoginServer ν κ) (m : AuthManager ν κ) : LoginServer ν κ :=
  { s with listener := { s.listener with manager := m } }

/-- `authenticate`: a success is kept for 5 min. -/
def authenticate (s : LoginServer ν κ) (username password : Text) : Bool × LoginServer ν κ :=
  let m := s.manager
  let cacheKey := username ++ ':' :: password
  if (s.authCache.get? cacheKey).any fun time => m.time < time + 300 * second then (true, s)
  else
    let result := (m.users.any fun u => u.1 = username && checks.verifyPassword password (u.2.getD [])) ||
      checks.externalAuthenticate m.time username password
    (result, if result then { s with authCache := s.authCache.set cacheKey m.time } else s)

/-- Credentials are tried. -/
def note (s : LoginServer ν κ) (surface : Surface) (username : Text) (srcIp : Option Text) (asked : Option Bool) (ok : Bool) :
    LoginServer ν κ :=
  let m := s.manager
  { s with tries := ⟨surface, failKey username srcIp, m.time, asked, decide (m.Locked username srcIp), ok⟩ :: s.tries }

/-- The record after a login: a success clears it, and a failure is registered. -/
def settle (s : LoginServer ν κ) (username : Text) (srcIp : Option Text) (ok : Bool) : LoginServer ν κ :=
  s.setManager (if ok then s.manager.clearAuthFailures username srcIp else s.manager.registerAuthFailure username srcIp)

/-! ## The web console -/

/-- `handle_login` with the form that was posted. -/
def handleLogin (s : LoginServer ν κ) (username password : Text) (clientIp : Option Text) : LoginServer ν κ :=
  if username = [] then s
  else
    let (locked, m) := s.manager.isUserLocked username clientIp
    let s := s.setManager m
    if locked then s
    else
      let (ok, s) := s.authenticate checks username password
      let ok := ok && checks.permitted s.manager.time username
      (s.note .form username clientIp (some locked) ok).settle username clientIp ok

/-- `_basic_auth_result` with a header that parses. It neither asks for the lock nor registers a failure. -/
def basicAuthResult (s : LoginServer ν κ) (username password : Text) (remote : Option Text) : LoginServer ν κ :=
  let (ok, s) := s.authenticate checks username password
  s.note .basic username remote none ok

/-! ## Telnet -/

/-- The next turn of the loop of `_run_login`. -/
def nextTurn (peerIp : Text) (attempts : Nat) : TelnetLogin :=
  if attempts ≤ 1 then .finished none else .login peerIp (attempts - 1)

def setTelnet (s : LoginServer ν κ) (t : Nat) (login : TelnetLogin) : LoginServer ν κ :=
  { s with telnet := s.telnet.set t login }

/-- `_run_login` from one line to the next. The lock is asked before the password is waited for. -/
def runLogin (s : LoginServer ν κ) (t : Nat) (line : Text) : TelnetLogin → Option (LoginServer ν κ)
  | .login peerIp attempts =>
      let username := (parseLogin line).1
      if username = [] then some (s.setTelnet t (nextTurn peerIp attempts))
      else
        let (locked, m) := s.manager.isUserLocked username (some peerIp)
        let s := s.setManager m
        some (s.setTelnet t (if locked then .finished none else .password peerIp attempts username locked))
  | .password peerIp attempts username asked =>
      let (ok, s) := s.authenticate checks username line
      let s := (s.note .telnet username (some peerIp) (some asked) ok).settle username (some peerIp) ok
      some (s.setTelnet t (if ok then .finished (some username) else nextTurn peerIp attempts))
  | .finished _ => none

/-! ## SSH -/

def setSsh (s : LoginServer ν κ) (c : Nat) (login : SshLogin) : LoginServer ν κ := { s with ssh := s.ssh.set c login }

/-- `validate_password`. -/
def validatePassword (s : LoginServer ν κ) (c : Nat) (login : SshLogin) (password : Text) : LoginServer ν κ :=
  if authMaxAttempts ≤ login.pwAttempts then s
  else
    let username := login.pendingUsername
    let (locked, m) := s.manager.isUserLocked username (some login.peerIp)
    let s := s.setManager m
    if locked then s
    else
      let (ok, s) := (s.setSsh c { login with pwAttempts := login.pwAttempts + 1 }).authenticate checks username password
      (s.note .ssh username (some login.peerIp) (some locked) ok).settle username (some login.peerIp) ok

/-- `validate_public_key`. A key that does not match is no failure. -/
def validatePublicKey (s : LoginServer ν κ) (login : SshLogin) (key : Text) : LoginServer ν κ :=
  let username := login.pendingUsername
  let (locked, m) := s.manager.isUserLocked username (some login.peerIp)
  let s := s.setManager m
  if locked then s
  else if checks.matchSshPubkey m.publicKeys username key then
    (s.note .publicKey username (some login.peerIp) (some locked) true).settle username (some login.peerIp) true
  else s

/-! ## The client listener -/

/-- The password that an answer on a connection tries: `verify_password_hmac` asks for the lock once more. -/
def noteAnswer (s : LoginServer ν κ) : Act ν → LoginServer ν κ
  | .answer c line =>
      match s.listener.conns.get? c, hmacAnswer line with
      | some (.password username srcIp _), some hmac =>
          let (ok, _) := s.manager.verifyPasswordHmac crypto username hmac srcIp
          let (locked, m) := s.manager.isUserLocked username srcIp
          let s := s.setManager m
          if locked then s else s.note .client username srcIp (some locked) ok
      | _, _ => s
  | _ => s

/-! ## Steps -/

variable [DecidableEq ν]

def step (s : LoginServer ν κ) : LoginAct ν → Option (LoginServer ν κ)
  | .form username password clientIp => some (s.handleLogin checks username password clientIp)
  | .basic username password remote => some (s.basicAuthResult checks username password remote)
  | .telnetConnect t peerIp =>
      if s.telnet.get? t = none then some (s.setTelnet t (.login peerIp authMaxAttempts)) else none
  | .telnetLine t line => (s.telnet.get? t).bind (s.runLogin checks t line)
  | .telnetLeave t => (s.telnet.get? t).map fun _ => s.setTelnet t (.finished none)
  | .sshConnect c peerIp => if s.ssh.get? c = none then some (s.setSsh c { peerIp := peerIp }) else none
  | .sshBeginAuth c username =>
      (s.ssh.get? c).map fun login => s.setSsh c { login with pendingUsername := (parseLogin username).1 }
  | .sshPassword c password => (s.ssh.get? c).map fun login => s.validatePassword checks c login password
  | .sshPublicKey c key => (s.ssh.get? c).map fun login => s.validatePublicKey checks login key
  | .client a =>
      if a.conn = none then none
      else (s.listener.step crypto a).map fun listener => { s.noteAnswer crypto a with listener := listener }
  | .askLocked username srcIp => some (s.setManager (s.manager.isUserLocked username srcIp).2)
  | .wait time => some (s.setManager { s.manager with time := s.manager.time + time })
  | .updateConfig users publicKeys =>
      (s.listener.step crypto (.updateConfig users publicKeys none none none)).map fun listener =>
        { s with listener := listener, authCache := ∅ }

/-- The surfaces with a configuration that was loaded, and the limits of its security policy. -/
def start (time : Nat) (users : List (Text × Option Text)) (publicKeys : List KeyRecord) (window threshold base : Option Nat) :
    LoginServer ν κ where
  listener := Listener.start time users publicKeys window threshold base

/-! ## The lockout as it is meant -/

end LoginServer

/-- When the first of the tries was made. -/
def started (w : List Try) : Nat := (w.getLast?.map Try.time).getD 0

/-- The tries that count together, with one more: a success ends them, and so does the window. -/
def extend (window : Nat) (t : Try) : List Try → List Try
  | [] => [t]
  | p :: ps => if p.ok = true ∨ started (p :: ps) + window * second < t.time then [t] else t :: p :: ps

/-- The latest tries of a pair that count together, on the surfaces that are looked at. -/
def counted (on : Surface → Bool) (window : Nat) (pair : Text × Text) : List Try → List Try
  | [] => []
  | t :: ts =>
      if t.pair = pair ∧ on t.surface = true then extend window t (counted on window pair ts) else counted on window pair ts

/-- The surface asks for the lock. -/
def Surface.asks : Surface → Bool
  | .basic => false
  | _ => true

namespace AuthManager

variable {ν κ : Type}

/-- How long the lock is that a failure begins, as the one of this number in its window. -/
def lockSeconds (m : AuthManager ν κ) (failures : Nat) : Nat :=
  min (m.baseLockSeconds * 2 ^ (failures - m.failureThreshold)) 3600

end AuthManager

namespace LoginServer

variable {ν κ : Type}

def counted (s : LoginServer ν κ) (on : Surface → Bool) (pair : Text × Text) : List Try :=
  Login.counted on s.manager.maxFailWindow pair s.tries

/-- No surface goes round the lockout: every password is tried after the lock was asked for and not in force, every failure is
registered and only a success or the end of the window takes the record away, and the tries of a window are not more than
the threshold. -/
structure Bounded (s : LoginServer ν κ) : Prop where
  asked : ∀ t ∈ s.tries, t.asked = some false
  unlocked : ∀ t ∈ s.tries, t.locked = false
  registered : ∀ pair r, s.manager.failTracker.get? pair = some r →
    r.failures = (s.counted (fun _ => true) pair).length ∧ ∀ t ∈ s.counted (fun _ => true) pair, t.ok = false
  kept : ∀ pair, s.manager.failTracker.get? pair = none → ∀ t ∈ (s.counted (fun _ => true) pair).head?,
    t.ok = true ∨ started (s.counted (fun _ => true) pair) + s.manager.maxFailWindow * second < s.manager.time
  bound : ∀ pair, (s.counted (fun _ => true) pair).length ≤ s.manager.failureThreshold

/-- The lockout off HTTP Basic, and but for the telnet passwords that are read after the lock began: the tries of a window
beyond the threshold wait for the lock of the failure before to run out, and these locks fit into the window. The first
failure of a window begins no lock. -/
structure Guarded (s : LoginServer ν κ) : Prop where
  asked : ∀ t ∈ s.tries, t.surface ≠ .basic → t.asked = some false
  unlocked : ∀ t ∈ s.tries, t.surface ≠ .basic → t.surface ≠ .telnet → t.locked = false
  registered : ∀ pair r, s.manager.failTracker.get? pair = some r →
    r.failures = (s.counted Surface.asks pair).length ∧ ∀ t ∈ s.counted Surface.asks pair, t.ok = false
  kept : ∀ pair, s.manager.failTracker.get? pair = none → ∀ t ∈ (s.counted Surface.asks pair).head?,
    t.ok = true ∨ started (s.counted Surface.asks pair) + s.manager.maxFailWindow * second < s.manager.time
  bound : ∀ pair, (∀ t ∈ s.counted Surface.asks pair, t.locked = false) →
    ∑ i ∈ Finset.Ico (max 2 s.manager.failureThreshold) (s.counted Surface.asks pair).length, s.manager.lockSeconds i ≤
      s.manager.maxFailWindow

end LoginServer

end OpenMux.Login

/-!
## Lockouts of the client listener

The password logins of the client listener from any addresses. The tries are listed under the address of their connection,
which the code does not keep: it asks and registers under the first character of it.
-/

namespace OpenMux.Login

open Py AuthManager

/-- The client listener, with the addresses of its connections and the answers that were judged, the newest first. -/
structure Attempts (ν κ : Type) where
  listener : Listener ν κ := {}
  addresses : Dict Nat Text := ∅
  tries : List Try := []

namespace Attempts

variable {ν κ : Type} (crypto : Crypto ν κ)

abbrev manager (s : Attempts ν κ) : AuthManager ν κ := s.listener.manager

/-- The user and the address of a connection that waits at a password challenge. -/
def waiting (s : Attempts ν κ) (c : Nat) : Option (Text × Text) :=
  match s.listener.conns.get? c, s.addresses.get? c with
  | some (.password username _ _), some address => some (username, address)
  | _, _ => none

/-- The answer to a password challenge is judged unless the lock is in force. -/
def noteAnswer (s : Attempts ν κ) (c : Nat) (line : Text) : List Try :=
  match s.listener.conns.get? c, s.addresses.get? c, hmacAnswer line with
  | some (.password username srcIp _), some address, some hmac =>
      if (s.manager.isUserLocked username srcIp).1 then s.tries
      else ⟨.client, (username, address), s.manager.time, some false, false,
        (s.manager.verifyPasswordHmac crypto username hmac srcIp).1⟩ :: s.tries
  | _, _, _ => s.tries

variable [DecidableEq ν]

/-- The steps of the connections, and the passing of time. -/
def step (s : Attempts ν κ) : Act ν → Option (Attempts ν κ)
  | .connect c address => (s.listener.step crypto (.connect c address)).map fun l =>
      { s with listener := l, addresses := s.addresses.set c address }
  | .answer c line => (s.listener.step crypto (.answer c line)).map fun l =>
      { s with listener := l, tries := s.noteAnswer crypto c line }
  | .login c line nonce => (s.listener.step crypto (.login c line nonce)).map fun l => { s with listener := l }
  | .leave c => (s.listener.step crypto (.leave c)).map fun l => { s with listener := l }
  | .wait time => (s.listener.step crypto (.wait time)).map fun l => { s with listener := l }
  | _ => none

def start (time : Nat) (users : List (Text × Option Text)) (publicKeys : List KeyRecord) (window threshold base : Option Nat) :
    Attempts ν κ where
  listener := Listener.start time users publicKeys window threshold base

/-! ## The lockout of a user at an address -/

/-- A connection came from the address. -/
def Known (s : Attempts ν κ) (address : Text) : Prop := ∃ c, s.addresses.get? c = some address

def Locked (s : Attempts ν κ) (username address : Text) : Prop := s.manager.Locked username (Listener.srcIp address)

/-- The latest tries of the user at the address that count together. -/
def counted (s : Attempts ν κ) (username address : Text) : List Try :=
  Login.counted (fun _ => true) s.manager.maxFailWindow (username, address) s.tries

/-- The user and the address that a step is about. -/
def subject (s : Attempts ν κ) : Act ν → Option (Text × Text)
  | .login c line _ =>
      match loginLine line, s.addresses.get? c with
      | some (.hmac username), some address => some (username, address)
      | _, _ => none
  | .answer c _ => s.waiting c
  | _ => none

/-- The `n`-th failure in a window, from the threshold on, locks the user at the address for its time, in which no answer is
accepted; and a step locks or unlocks nobody else. -/
structure LocksOut (s : Attempts ν κ) : Prop where
  locked : ∀ username address, s.Known address → ∀ t ∈ (s.counted username address).head?, t.ok = false →
    s.manager.failureThreshold ≤ (s.counted username address).length →
      s.manager.time < t.time + s.manager.lockSeconds (s.counted username address).length * second → s.Locked username address
  refused : ∀ c line username address s', s.waiting c = some (username, address) → s.Locked username address →
    s.step crypto (.answer c line) = some s' → ¬ s'.listener.LoggedIn c
  apart : ∀ a s', a.conn.isSome → s.step crypto a = some s' → ∀ username address, s.Known address →
    s.subject a ≠ some (username, address) → (s'.Locked username address ↔ s.Locked username address)

/-- A connection comes from an address that no other address so far begins like. -/
def Told (s : Attempts ν κ) : Act ν → Prop
  | .connect _ address => ∀ e ∈ s.addresses.entries,
      failKey [] (Listener.srcIp e.2) = failKey [] (Listener.srcIp address) → e.2 = address
  | _ => True

instance (s : Attempts ν κ) : (a : Act ν) → Decidable (s.Told a)
  | .connect _ address => inferInstanceAs (Decidable (∀ e ∈ s.addresses.entries,
      failKey [] (Listener.srcIp e.2) = failKey [] (Listener.srcIp address) → e.2 = address))
  | .login .. | .answer .. | .leave _ | .wait _ | .updateConfig .. | .updateSecurityPolicy .. | .askLocked .. | .failure ..
  | .success .. => isTrue trivial

end Attempts

end OpenMux.Login
