import OpenMux.Lib.Dict
import OpenMux.Lib.PyText
import OpenMux.Lib.Run

/-!
# Challenges and lockouts

What the auth manager keeps for the client listener: the outstanding challenges, by username or by username and key id, and
the failed logins. Nonces and keys are abstract, as are the checks of an HMAC and of a signature; an answer that does not
decode does not pass its check. Times are in microseconds.
-/

namespace OpenMux.Login

open Py

/-- A record of `public_keys`, normalised. -/
structure KeyRecord where
  username : Option Text
  keyId : Option Text
  publicKey : Option Text
  allowedUses : List Text
  disabled : Bool
deriving DecidableEq

/-- What stands for cryptography. -/
structure Crypto (ν κ : Type) where
  hmacMatches : Text → ν → Text → Bool
  loadEd25519PublicKey : KeyRecord → Option κ
  verify : κ → ν → Text → Bool

/-- An outstanding challenge, with the password hash or the key that answers it. -/
structure Challenge (ν σ : Type) where
  nonceRaw : ν
  secret : σ
  expiresAt : Nat
deriving DecidableEq

structure FailRecord where
  failures : Nat
  firstFailure : Nat
  lockedUntil : Nat
deriving DecidableEq

def second : Nat := 1000000

structure AuthManager (ν κ : Type) where
  time : Nat := 0
  users : List (Text × Option Text) := []
  publicKeys : List KeyRecord := []
  pkChallenges : Dict (Text × Text) (Challenge ν κ) := ∅
  pwHmacChallenges : Dict Text (Challenge ν Text) := ∅
  failTracker : Dict (Text × Text) FailRecord := ∅
  maxFailWindow : Nat := 300
  baseLockSeconds : Nat := 30
  failureThreshold : Nat := 5

namespace AuthManager

variable {ν κ : Type} (crypto : Crypto ν κ)

/-! ## Configuration -/

/-- A limit of the security policy; `none` is anything that is no positive integer. -/
def limit (old : Nat) : Option Nat → Nat
  | some n => if 0 < n then n else old
  | none => old

/-- `_apply_security_policy`. -/
def applySecurityPolicy (m : AuthManager ν κ) (window threshold base : Option Nat) : AuthManager ν κ :=
  { m with
    maxFailWindow := limit m.maxFailWindow window
    failureThreshold := limit m.failureThreshold threshold
    baseLockSeconds := limit m.baseLockSeconds base }

/-- `update_config`, which applies the security policy again. -/
def updateConfig (m : AuthManager ν κ) (users : List (Text × Option Text)) (publicKeys : List KeyRecord)
    (window threshold base : Option Nat) : AuthManager ν κ :=
  ({ m with users := users, publicKeys := publicKeys, pkChallenges := ∅, pwHmacChallenges := ∅ } : AuthManager ν κ)
    |>.applySecurityPolicy window threshold base

/-! ## Lockouts -/

/-- The key of the failures of a user. -/
def failKey (username : Text) (srcIp : Option Text) : Text × Text := (username, if srcIp.getD [] = [] then ['?'] else srcIp.getD [])

/-- `register_auth_failure`. -/
def registerAuthFailure (m : AuthManager ν κ) (username : Text) (srcIp : Option Text) : AuthManager ν κ :=
  let key := failKey username srcIp
  let put r : AuthManager ν κ := { m with failTracker := m.failTracker.set key r }
  match m.failTracker.get? key with
  | none => put ⟨1, m.time, 0⟩
  | some r =>
      if r.firstFailure + m.maxFailWindow * second < m.time then put ⟨1, m.time, 0⟩
      else
        let failures := r.failures + 1
        if m.failureThreshold ≤ failures then
          let lockSeconds := min (m.baseLockSeconds * 2 ^ (failures - m.failureThreshold)) 3600
          put { r with failures := failures, lockedUntil := max r.lockedUntil (m.time + lockSeconds * second) }
        else put { r with failures := failures }

/-- `clear_auth_failures`. -/
def clearAuthFailures (m : AuthManager ν κ) (username : Text) (srcIp : Option Text) : AuthManager ν κ :=
  { m with failTracker := m.failTracker.pop (failKey username srcIp) }

/-- A lock is in force. -/
def Locked (m : AuthManager ν κ) (username : Text) (srcIp : Option Text) : Prop :=
  ∃ r ∈ m.failTracker.get? (failKey username srcIp), m.time < r.lockedUntil

instance (m : AuthManager ν κ) (username : Text) (srcIp : Option Text) : Decidable (m.Locked username srcIp) :=
  inferInstanceAs (Decidable (∃ r ∈ _, _))

/-- `is_user_locked`, which forgets a lock that ran out and a record whose window closed. -/
def isUserLocked (m : AuthManager ν κ) (username : Text) (srcIp : Option Text) : Bool × AuthManager ν κ :=
  let key := failKey username srcIp
  match m.failTracker.get? key with
  | none => (false, m)
  | some r =>
      if m.time < r.lockedUntil then (true, m)
      else
        let r := { r with lockedUntil := 0 }
        let m : AuthManager ν κ := { m with failTracker := m.failTracker.set key r }
        if r.firstFailure + m.maxFailWindow * second < m.time then (false, { m with failTracker := m.failTracker.pop key })
        else (false, m)

/-! ## Passwords -/

/-- `get_password_hash_hex`. -/
def getPasswordHashHex (m : AuthManager ν κ) (username : Text) : Option Text :=
  (m.users.find? (·.1 = username)).bind (·.2)

/-- `start_password_hmac_challenge` with the nonce that is drawn; `none` where the user has no password. -/
def startPasswordHmacChallenge (m : AuthManager ν κ) (username : Text) (nonce : ν) : Option (AuthManager ν κ) :=
  match m.getPasswordHashHex username with
  | none => none
  | some pwHex =>
      if pwHex = [] then none
      else some { m with pwHmacChallenges := m.pwHmacChallenges.set username ⟨nonce, pwHex, m.time + 30 * second⟩ }

/-- `verify_password_hmac`. -/
def verifyPasswordHmac (m : AuthManager ν κ) (username hmacB64 : Text) (srcIp : Option Text) : Bool × AuthManager ν κ :=
  let (locked, m) := m.isUserLocked username srcIp
  if locked then (false, m)
  else
    match m.pwHmacChallenges.get? username with
    | none => (false, m.registerAuthFailure username srcIp)
    | some entry =>
        let m' : AuthManager ν κ := { m with pwHmacChallenges := m.pwHmacChallenges.pop username }
        if entry.expiresAt < m.time then (false, m'.registerAuthFailure username srcIp)
        else if crypto.hmacMatches entry.secret entry.nonceRaw hmacB64 then (true, m'.clearAuthFailures username srcIp)
        else (false, m'.registerAuthFailure username srcIp)

/-! ## Public keys -/

/-- `_resolve_public_key_record`. -/
def resolvePublicKeyRecord (m : AuthManager ν κ) (username : Text) (keyId : Option Text) : Option KeyRecord :=
  let records := m.publicKeys.filter fun r =>
    r.username = some username && !r.disabled && r.allowedUses.contains ['c', 'l', 'i', 'e', 'n', 't']
  match keyId with
  | some id => if id = [] then records.head? else records.find? (·.keyId = some id)
  | none => records.head?

/-- The key id a challenge is kept under. -/
def effectiveKeyId (r : KeyRecord) : Text :=
  if r.keyId.getD [] = [] then ['d', 'e', 'f', 'a', 'u', 'l', 't'] else r.keyId.getD []

/-- `start_pubkey_challenge` with the nonce that is drawn: the key id it answers; `none` where there is no key. -/
def startPubkeyChallenge (m : AuthManager ν κ) (username : Text) (keyId : Option Text) (nonce : ν) :
    Option (Text × AuthManager ν κ) :=
  match m.resolvePublicKeyRecord username keyId with
  | none => none
  | some r =>
      match crypto.loadEd25519PublicKey r with
      | none => none
      | some pub => some (effectiveKeyId r,
          { m with pkChallenges := m.pkChallenges.set (username, effectiveKeyId r) ⟨nonce, pub, m.time + 30 * second⟩ })

/-- `verify_pubkey_response`. A signature that does not pass leaves the challenge. -/
def verifyPubkeyResponse (m : AuthManager ν κ) (username keyId signatureB64 : Text) : Bool × AuthManager ν κ :=
  match m.pkChallenges.get? (username, keyId) with
  | none => (false, m)
  | some entry =>
      let m' : AuthManager ν κ := { m with pkChallenges := m.pkChallenges.pop (username, keyId) }
      if entry.expiresAt < m.time then (false, m')
      else if crypto.verify entry.secret entry.nonceRaw signatureB64 then (true, m')
      else (false, m)

end AuthManager

end OpenMux.Login

/-!
## The login cache

`authenticate` with the cache of its successes, and the reload of the configuration. The SHA-256 digest of a password and what
the helper of the external accounts answers are parameters. `none` is an exception. The clock may go either way.
-/

namespace OpenMux.Login

open Py

/-- An entry of `users`: its username, unless it is no text, and its password hash, unless it is no text; a hash that is
missing is empty. -/
inductive UserEntry
  | record (username : Option Text) (passwordHash : Option Text)
  | noMapping
deriving DecidableEq

/-- The block `external_auth`. A timeout that is no number, or groups that are no mapping, cannot be read. -/
inductive ExternalAuth
  | mapping (enabled : Bool) (timeoutOk : Bool) (allowRoot : Bool) (allowedUsers : Option (List Text)) (groupsOk : Bool)
  | noMapping
deriving DecidableEq

/-- A configuration; `users` is `none` where it is no list. -/
structure AuthConfig where
  users : Option (List UserEntry) := some []
  externalAuth : ExternalAuth := .mapping false true false none true
deriving DecidableEq

structure CacheEntry where
  result : Bool
  time : Nat
deriving DecidableEq

/-- The manager. `checked` lists the pairs that passed the check since the cache was emptied, the newest first. -/
structure Authenticator where
  users : Option (List UserEntry) := some []
  extAuthEnabled : Bool := false
  extAuthAllowRoot : Bool := false
  extAuthAllowedUsers : Option (List Text) := none
  authCache : Dict Text CacheEntry := ∅
  checked : List (Text × Text × Nat) := []

inductive AuthAct
  | authenticate (time : Nat) (username password : Text)
  | updateConfig (config : AuthConfig)

namespace Authenticator

/-- What stands behind the passwords. -/
structure Oracle where
  sha256 : Text → Text
  helper : Text → Text → Bool

variable (oracle : Oracle)

/-- `_verify_password`: `compare_digest` refuses text beyond ASCII. -/
def verifyPassword (password storedHash : Text) : Option Bool :=
  if storedHash.all fun c => c.toNat < 128 then some (oracle.sha256 password = storedHash) else none

/-- The loop over `users`. -/
def verifyLocal (username password : Text) : List UserEntry → Option Bool
  | [] => some false
  | .noMapping :: _ => none
  | .record name hash :: us =>
      if name = some username then
        match hash.bind (verifyPassword oracle password) with
        | none => none
        | some true => some true
        | some false => verifyLocal username password us
      else verifyLocal username password us

/-- `_external_authenticate`. -/
def externalAuthenticate (m : Authenticator) (username password : Text) : Bool :=
  if !m.extAuthAllowRoot && username = ['r', 'o', 'o', 't'] then false
  else if m.extAuthAllowedUsers.any fun us => !us.contains username then false
  else oracle.helper username password

/-- The check of `authenticate` without its cache. -/
def check (m : Authenticator) (username password : Text) : Option Bool :=
  match m.users.bind (verifyLocal oracle username password) with
  | none => none
  | some true => some true
  | some false => some (m.extAuthEnabled && m.externalAuthenticate oracle username password)

def cacheKey (username password : Text) : Text := username ++ ':' :: password

/-- What the cache has for a key, less than 300 s old. -/
def cached (m : Authenticator) (time : Nat) (key : Text) : Option Bool :=
  match m.authCache.get? key with
  | some e => if time < e.time + 300 * second then some e.result else none
  | none => none

/-- `authenticate`. -/
def authenticate (m : Authenticator) (time : Nat) (username password : Text) : Option Bool × Authenticator :=
  match m.cached time (cacheKey username password) with
  | some result => (some result, m)
  | none =>
      match m.check oracle username password with
      | some true => (some true,
          { m with
            authCache := m.authCache.set (cacheKey username password) ⟨true, time⟩
            checked := (username, password, time) :: m.checked })
      | result => (result, m)

/-- `_load_ext_auth_config`, and whether it comes to its end. -/
def loadExtAuthConfig (m : Authenticator) : ExternalAuth → Bool × Authenticator
  | .noMapping => (false, m)
  | .mapping enabled timeoutOk allowRoot allowedUsers groupsOk =>
      let m : Authenticator := { m with extAuthEnabled := enabled }
      if timeoutOk then
        (groupsOk, { m with extAuthAllowRoot := allowRoot, extAuthAllowedUsers := allowedUsers })
      else (false, m)

/-- `update_config`. The cache is emptied after the external accounts are read. -/
def updateConfig (m : Authenticator) (config : AuthConfig) : Authenticator :=
  let (ok, m) := ({ m with users := config.users } : Authenticator).loadExtAuthConfig config.externalAuth
  if ok then { m with authCache := ∅, checked := [] } else m

def step (m : Authenticator) : AuthAct → Option Authenticator
  | .authenticate time username password => some (m.authenticate oracle time username password).2
  | .updateConfig config => some (m.updateConfig config)

/-- A manager with its first configuration. -/
def start (config : AuthConfig) : Authenticator :=
  (({ users := config.users } : Authenticator).loadExtAuthConfig config.externalAuth).2

/-! ## Transparency -/

/-- A call gives what it gives with an empty cache. -/
def Transparent (m : Authenticator) : AuthAct → Prop
  | .authenticate time username password =>
      (m.authenticate oracle time username password).1 =
        (({ m with authCache := ∅ } : Authenticator).authenticate oracle time username password).1
  | .updateConfig _ => True

/-- The last pair with the same text around a colon that passed the check. -/
def lastChecked (m : Authenticator) (key : Text) : Option (Text × Text × Nat) :=
  m.checked.find? fun c => cacheKey c.1 c.2.1 = key

/-- A call passes the check, or the last pair with the same text around a colon that passed it, since a configuration was read to
its end, did so 300 s ago or more. -/
def Unmixed (m : Authenticator) : AuthAct → Prop
  | .authenticate time username password => m.check oracle username password = some true ∨
      ∀ c ∈ m.lastChecked (cacheKey username password), c.2.2 + 300 * second ≤ time
  | .updateConfig _ => True

instance (m : Authenticator) : (a : AuthAct) → Decidable (m.Unmixed oracle a)
  | .authenticate time username password => inferInstanceAs (Decidable (m.check oracle username password = some true ∨
      ∀ c ∈ m.lastChecked (cacheKey username password), c.2.2 + 300 * second ≤ time))
  | .updateConfig _ => isTrue trivial

variable {oracle}

/-! ## The cache and the pairs that passed the check -/

/-- The cache has the newest of the pairs for each key. -/
def Filed (m : Authenticator) : Prop :=
  ∀ key, m.authCache.get? key = (m.lastChecked key).map fun c => ⟨true, c.2.2⟩

theorem filed_start (config : AuthConfig) : (start config).Filed := by
  intro key
  unfold start loadExtAuthConfig
  split
  · rfl
  · dsimp only
    split <;> rfl

theorem Filed.updateConfig {m : Authenticator} (h : m.Filed) (config : AuthConfig) : (m.updateConfig config).Filed := by
  intro key
  unfold Authenticator.updateConfig loadExtAuthConfig
  cases config.externalAuth with
  | noMapping => exact h key
  | mapping enabled timeoutOk allowRoot allowedUsers groupsOk =>
      cases timeoutOk with
      | false => exact h key
      | true =>
          cases groupsOk with
          | false => exact h key
          | true => rfl

theorem Filed.authenticate {m : Authenticator} (h : m.Filed) (time : Nat) (username password : Text) :
    (m.authenticate oracle time username password).2.Filed := by
  intro key
  unfold Authenticator.authenticate
  split
  · exact h key
  · split
    · simp only [lastChecked, Dict.get?_set, List.find?_cons]
      by_cases hk : key = cacheKey username password
      · simp [hk]
      · simp only [hk, if_false, Ne.symm hk, decide_false]
        exact h key
    · exact h key

theorem Filed.step {m m' : Authenticator} {a : AuthAct} (h : m.Filed) (hs : m.step oracle a = some m') : m'.Filed := by
  cases a with
  | authenticate time username password =>
      cases hs
      exact h.authenticate time username password
  | updateConfig config =>
      cases hs
      exact h.updateConfig config

/-- With an empty cache a call gives what the check gives. -/
theorem authenticate_empty (m : Authenticator) (time : Nat) (username password : Text) :
    (({ m with authCache := ∅ } : Authenticator).authenticate oracle time username password).1 =
      m.check oracle username password := by
  have hcheck : ({ m with authCache := ∅ } : Authenticator).check oracle username password = m.check oracle username password := rfl
  unfold authenticate cached
  rw [Dict.get?_empty, hcheck]
  dsimp only
  split
  · exact Eq.symm ‹_›
  · rfl

/-- The cache only ever says yes. -/
theorem Filed.cached {m : Authenticator} (h : m.Filed) (time : Nat) (key : Text) :
    m.cached time key = (m.lastChecked key).bind fun c => if time < c.2.2 + 300 * second then some true else none := by
  rw [Authenticator.cached, h]
  cases m.lastChecked key with
  | none => rfl
  | some c => rw [Option.map_some, Option.bind_some]

theorem authenticate_miss {m : Authenticator} {time : Nat} {username password : Text}
    (h : m.cached time (cacheKey username password) = none) :
    (m.authenticate oracle time username password).1 = m.check oracle username password := by
  unfold authenticate
  rw [h]
  dsimp only
  split
  · exact Eq.symm ‹_›
  · rfl

theorem authenticate_hit {m : Authenticator} {time : Nat} {username password : Text} {result : Bool}
    (h : m.cached time (cacheKey username password) = some result) :
    (m.authenticate oracle time username password).1 = some result := by
  unfold authenticate
  rw [h]

theorem Filed.transparent_iff {m : Authenticator} (h : m.Filed) (a : AuthAct) : m.Transparent oracle a ↔ m.Unmixed oracle a := by
  cases a with
  | updateConfig config => exact Iff.rfl
  | authenticate time username password =>
      simp only [Transparent, Unmixed, authenticate_empty]
      have hcached := h.cached time (cacheKey username password)
      cases hc : m.lastChecked (cacheKey username password) with
      | none =>
          rw [hc, Option.bind_none] at hcached
          rw [authenticate_miss hcached]
          simp
      | some c =>
          rw [hc, Option.bind_some] at hcached
          by_cases hlt : time < c.2.2 + 300 * second
          · rw [if_pos hlt] at hcached
            rw [authenticate_hit hcached]
            simp only [Option.mem_some_iff, forall_eq', Nat.not_le.mpr hlt, or_false]
            exact eq_comm
          · rw [if_neg hlt] at hcached
            rw [authenticate_miss hcached]
            simp only [Option.mem_some_iff, forall_eq', Nat.not_lt.mp hlt, or_true]

end Authenticator

end OpenMux.Login
