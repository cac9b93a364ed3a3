import OpenMux.Lib.Run
import OpenMux.Login.AuthManager
import OpenMux.Login.Lemmas.Lockout
import OpenMux.Login.Lemmas.Logins
import OpenMux.Login.Lemmas.Surfaces

/-!
# Logins by challenge
-/

namespace OpenMux.Login

open Py

namespace Listener

/-- In every run whose logins keep apart, an answer is accepted exactly when it is correct for the challenge that was sent on
its own connection and the user is not locked out; no nonce is accepted twice; and no step of another connection changes what
is correct. -/
theorem logins_apart {ν κ : Type} [DecidableEq ν] (crypto : Crypto ν κ) {time : Nat} {users : List (Text × Option Text)}
    {publicKeys : List KeyRecord} {window threshold base : Option Nat} {as : List (Act ν)} {s : Listener ν κ}
    (hrun : Transition.exec (step crypto) (start time users publicKeys window threshold base) as = some s)
    (hapart : Transition.Along (step crypto) (Apart crypto) (start time users publicKeys window threshold base) as) :
    (∀ c line s', s.Apart crypto (.answer c line) → s.step crypto (.answer c line) = some s' → s.Answered crypto c line s') ∧
      (s.accepted.map Prod.snd).Nodup ∧
      ∀ c c' a s', a.conn = some c' → c ≠ c' → s.step crypto a = some s' →
        ∀ line, s'.Correct crypto c line ↔ s.Correct crypto c line := by
  obtain ⟨hinv, hspent⟩ : s.Inv ∧ s.Spent :=
    Transition.exec_invariant (I := fun s => s.Inv ∧ s.Spent) (fun _ a _ h ha hstep => step_keeps a h ha hstep)
      (inv_start time users publicKeys window threshold base) hapart hrun
  refine ⟨fun c line s' ha hstep => (answer_step hinv ha hstep).2.1, hspent.nodup, fun c c' a s' hc' hne hstep line => ?_⟩
  exact Undisturbed.correct (step_other hc' hne hstep)

/-- An answer repeats the secret and then counts the nonce. -/
def countingCrypto : Crypto Nat Text where
  hmacMatches secret nonce answer := answer = secret ++ List.replicate nonce 'x'
  loadEd25519PublicKey r := r.publicKey
  verify key nonce signature := signature = key ++ List.replicate nonce 'x'

/-- One user with a password. -/
def oneUser : Listener Nat Text := start 0 [(['u'], some ['p'])] [] none none none

theorem logins_apart_one : ∃ s, Transition.exec (step countingCrypto) oneUser
      [.connect 0 ['1'], .login 0 "AUTH:USER:HMAC:u".toList 1] = some s ∧
    ∃ s', s.step countingCrypto (.answer 0 "AUTH:RESPONSE:px".toList) = some s' ∧
      s.Answered countingCrypto 0 "AUTH:RESPONSE:px".toList s' := by
  refine ⟨_, rfl, _, rfl, ?_⟩
  refine (logins_apart countingCrypto (rfl : Transition.exec (step countingCrypto) oneUser
    [.connect 0 ['1'], .login 0 "AUTH:USER:HMAC:u".toList 1] = some _) ⟨trivial, ?_, trivial⟩).1 _ _ _ ?_ rfl
  · intro _ c' sent hw
    have hidle : (oneUser.setConn 0 (.opened ['1'])).passwordWait c' = some (['u'], sent) := hw
    rw [passwordWait_setConn] at hidle
    split at hidle <;> cases hidle
  · intro _ hmac _ e he _ hn
    cases he
    exact absurd rfl hn

/-- Two connections log in as one user. The answer to the challenge of the first is refused on it, and the answer to the
challenge of the second is accepted on the first. -/
theorem logins_meet : ∃ s own other, Transition.exec (step countingCrypto) oneUser
      [.connect 0 ['1'], .connect 1 ['2'], .login 0 "AUTH:USER:HMAC:u".toList 1, .login 1 "AUTH:USER:HMAC:u".toList 2] = some s ∧
    s.step countingCrypto (.answer 0 "AUTH:RESPONSE:px".toList) = some own ∧
    s.Correct countingCrypto 0 "AUTH:RESPONSE:px".toList ∧ ¬ s.LockedOut 0 ∧ ¬ own.LoggedIn 0 ∧
    s.step countingCrypto (.answer 0 "AUTH:RESPONSE:pxx".toList) = some other ∧
    ¬ s.Correct countingCrypto 0 "AUTH:RESPONSE:pxx".toList ∧ other.LoggedIn 0 := by
  refine ⟨_, _, _, rfl, rfl, ⟨⟨_, rfl, by decide⟩, by decide, rfl⟩, ?_, ?_, rfl, ?_, ⟨['u'], rfl⟩⟩
  · rintro ⟨r, hr, -⟩
    cases hr
  · rintro ⟨_, h⟩
    cases h
  · rintro ⟨⟨hmac, h, hm⟩, -⟩
    cases h
    revert hm
    decide

end Listener

namespace LoginServer

/-- In every run of the logins on all surfaces, a password is tried on a surface other than HTTP Basic only after the lock was
asked for, and not while it is in force unless telnet had asked for the password before; every failure counts until a success
or the end of the window; and the passwords of a window beyond the threshold wait for locks that fit into the window. -/
theorem lockout_guarded {ν κ : Type} [DecidableEq ν] (crypto : Crypto ν κ) (checks : Checks) {time : Nat}
    {users : List (Text × Option Text)} {publicKeys : List KeyRecord} {window threshold base : Option Nat}
    {as : List (LoginAct ν)} {s : LoginServer ν κ}
    (hrun : Transition.exec (step crypto checks) (start time users publicKeys window threshold base) as = some s) :
    s.Guarded := by
  have hinv : s.Inv :=
    Transition.exec_invariant' (fun _ a _ h hstep => inv_step a h hstep)
      (inv_start time users publicKeys window threshold base) hrun
  exact hinv.guarded

/-- The hash of a password is the password, and every account may log in. -/
def plainChecks : Checks where
  verifyPassword password hash := password = hash
  externalAuthenticate _ _ _ := false
  permitted _ _ := true
  matchSshPubkey _ _ _ := false

/-- One user with a password, and the limits that the code has for none. -/
def oneAccount : LoginServer Nat Text := start 0 [(['u'], some ['p'])] [] none none none

/-- A wrong password and the right one, on two surfaces. -/
theorem lockout_guarded_one : ∃ s, Transition.exec (step Listener.countingCrypto plainChecks) oneAccount
      [.form ['u'] ['x'] (some ['1']), .telnetConnect 0 ['1'], .telnetLine 0 ['u'], .telnetLine 0 ['p']] = some s ∧
    s.tries.map Try.ok = [true, false] ∧ s.Guarded := by
  refine ⟨_, rfl, by decide, ?_⟩
  exact lockout_guarded Listener.countingCrypto plainChecks (rfl : Transition.exec (step Listener.countingCrypto plainChecks) oneAccount
    [.form ['u'] ['x'] (some ['1']), .telnetConnect 0 ['1'], .telnetLine 0 ['u'], .telnetLine 0 ['p']] = some _)

/-- Five wrong passwords in the login form and, as soon as the lock of 30 s has run out, one more: six in a window of 300 s. -/
theorem lockout_exceeds : ∃ s, Transition.exec (step Listener.countingCrypto plainChecks) oneAccount
      (List.replicate 5 (.form ['u'] ['x'] (some ['1'])) ++ [.wait (30 * second), .form ['u'] ['x'] (some ['1'])]) = some s ∧
    ¬ s.Bounded := by
  refine ⟨_, rfl, fun h => ?_⟩
  have hbound := h.bound (['u'], ['1'])
  revert hbound
  decide

end LoginServer

namespace Attempts

/-- One user with a password, who is locked at the second failure. -/
def strict : Attempts Nat Text := start 0 [(['u'], some ['p'])] [] none (some 2) none

/-- A login line and a wrong answer. -/
def wrong (c nonce : Nat) (address : Text) : List (Act Nat) :=
  [.connect c address, .login c "AUTH:USER:HMAC:u".toList nonce, .answer c "AUTH:RESPONSE:q".toList]

end Attempts

namespace Authenticator

open Transition

/-- The calls of a run give what they give with an empty cache exactly when none of them meets the success of another pair with
the same text around a colon, or its own from before a reload that was not read to its end. -/
theorem login_cache_iff (oracle : Oracle) (config : AuthConfig) (acts : List AuthAct) :
    Along (step oracle) (Transparent oracle) (start config) acts ↔ Along (step oracle) (Unmixed oracle) (start config) acts :=
  along_congr (fun _ _ _ h _ hs => h.step hs) (fun _ a h => h.transparent_iff a) (filed_start config)

/-- A digest that is the password, and no other accounts. -/
def plainOracle : Oracle := ⟨id, fun _ _ => false⟩

/-- The user `a` with the password `b:c` logs in, and then the user `a:b`, whom nobody knows, with the password `c`. -/
theorem login_cache_fails : ¬ ∀ (oracle : Oracle) (config : AuthConfig) (acts : List AuthAct),
    Along (step oracle) (Transparent oracle) (start config) acts := by
  intro h
  have hrun := h plainOracle { users := some [.record (some ['a']) (some ['b', ':', 'c'])] }
    [.authenticate 0 ['a'] ['b', ':', 'c'], .authenticate 1 ['a', ':', 'b'] ['c']]
  have hunmixed := (along_congr (fun _ _ _ h _ hs => h.step hs) (fun _ a h => h.transparent_iff a) (filed_start _)).mp hrun
  revert hunmixed
  decide

end Authenticator

end OpenMux.Login
