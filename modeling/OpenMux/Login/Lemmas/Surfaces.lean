import OpenMux.Login.Surfaces
import OpenMux.Login.Lemmas.Logins

/-!
# Tries and the record of failures

The record that the auth manager keeps of a pair stands for the tries of the pair that count together.
-/

namespace OpenMux.Login

open Py

variable {ν κ : Type}

/-! ## The record of a pair -/

namespace AuthManager

variable {m m' : AuthManager ν κ} {username : Text} {srcIp : Option Text} {o : Option FailRecord} {t : Try} {w ts : List Try}

/-- The clock and the limits stay as they are. -/
structure Agrees (m m' : AuthManager ν κ) : Prop where
  time : m'.time = m.time
  maxFailWindow : m'.maxFailWindow = m.maxFailWindow
  baseLockSeconds : m'.baseLockSeconds = m.baseLockSeconds
  failureThreshold : m'.failureThreshold = m.failureThreshold

theorem Agrees.refl (m : AuthManager ν κ) : m.Agrees m := ⟨rfl, rfl, rfl, rfl⟩

/-- What is kept of a pair whose tries are `w`. -/
inductive Record (m : AuthManager ν κ) : Option FailRecord → List Try → Prop
  | untried : Record m none []
  | cleared {p ps} (hok : p.ok = true) : Record m none (p :: ps)
  | dropped {p ps} (hok : ∀ q ∈ p :: ps, q.ok = false)
      (hover : started (p :: ps) + m.maxFailWindow * second < m.time)
      (hserved : max 2 m.failureThreshold ≤ (p :: ps).length →
        p.time + m.lockSeconds (p :: ps).length * second ≤ m.time) : Record m none (p :: ps)
  | kept {p ps r} (hok : ∀ q ∈ p :: ps, q.ok = false) (hcount : r.failures = (p :: ps).length)
      (hfirst : r.firstFailure = started (p :: ps))
      (hlock : max 2 m.failureThreshold ≤ (p :: ps).length →
        p.time + m.lockSeconds (p :: ps).length * second ≤ max r.lockedUntil m.time) : Record m (some r) (p :: ps)

/-- The tries of a window: the locks that their failures began have run out between them. -/
structure Paced (m : AuthManager ν κ) (w : List Try) : Prop where
  within : ∀ p ∈ w.head?, p.time ≤ started w + m.maxFailWindow * second
  past : ∀ p ∈ w.head?, p.time ≤ m.time
  served : ∀ p ∈ w.head?, (∀ q ∈ w, q.locked = false) →
    started w + (∑ i ∈ Finset.Ico (max 2 m.failureThreshold) w.length, m.lockSeconds i) * second ≤ p.time

@[simp] theorem started_single (t : Try) : started [t] = t.time := rfl

@[simp] theorem started_cons (t p : Try) (ps : List Try) : started (t :: p :: ps) = started (p :: ps) := by
  simp [started, List.getLast?_cons_cons]

theorem Agrees.lockSeconds (h : m.Agrees m') (n : Nat) : m'.lockSeconds n = m.lockSeconds n := by
  simp [AuthManager.lockSeconds, h.baseLockSeconds, h.failureThreshold]

theorem Record.agrees (hr : m.Record o w) (h : m.Agrees m') : m'.Record o w := by
  cases hr with
  | untried => exact .untried
  | cleared hok => exact .cleared hok
  | dropped hok hover hserved =>
      refine .dropped hok (by rw [h.maxFailWindow, h.time]; exact hover) ?_
      rw [h.failureThreshold, h.lockSeconds, h.time]
      exact hserved
  | kept hok hcount hfirst hlock =>
      refine .kept hok hcount hfirst ?_
      rw [h.failureThreshold, h.lockSeconds, h.time]
      exact hlock

theorem Paced.agrees (hp : m.Paced w) (h : m.Agrees m') : m'.Paced w where
  within := by simpa only [h.maxFailWindow] using hp.within
  past := by simpa only [h.time] using hp.past
  served := by simpa only [h.failureThreshold, h.lockSeconds] using hp.served

/-- What `is_user_locked` leaves of a record that is not locked: its lock ran out, and a record whose window closed is
forgotten. -/
def unlocked (m : AuthManager ν κ) (r : FailRecord) : Option FailRecord :=
  if r.firstFailure + m.maxFailWindow * second < m.time then none else some { r with lockedUntil := 0 }

theorem Record.ask (hr : m.Record o w) (hno : ∀ r ∈ o, ¬ m.time < r.lockedUntil) : m.Record (o.bind m.unlocked) w := by
  cases hr with
  | untried => exact .untried
  | cleared hok => exact .cleared hok
  | dropped hok hover hserved => exact .dropped hok hover hserved
  | @kept p ps r hok hcount hfirst hlock =>
      have hle : ¬ m.time < r.lockedUntil := hno r rfl
      rw [Option.bind_some, unlocked]
      split
      · rename_i hover
        refine .dropped hok (hfirst ▸ hover) fun hth => ?_
        have := hlock hth
        omega
      · refine .kept hok hcount hfirst fun hth => ?_
        have := hlock hth
        simp only [Nat.zero_max]
        omega

theorem Record.wait (hr : m.Record o w) (d : Nat) : ({ m with time := m.time + d } : AuthManager ν κ).Record o w := by
  cases hr with
  | untried => exact .untried
  | cleared hok => exact .cleared hok
  | dropped hok hover hserved =>
      exact .dropped hok (Nat.lt_add_right d hover) fun hth => Nat.le_add_right_of_le (hserved hth)
  | @kept p ps r hok hcount hfirst hlock =>
      refine .kept hok hcount hfirst fun hth => (hlock hth).trans ?_
      exact max_le_max le_rfl (Nat.le_add_right _ _)

/-- What `register_auth_failure` makes of a record. -/
def registered (m : AuthManager ν κ) (o : Option FailRecord) : FailRecord :=
  match o with
  | none => ⟨1, m.time, 0⟩
  | some r =>
      if r.firstFailure + m.maxFailWindow * second < m.time then ⟨1, m.time, 0⟩
      else if m.failureThreshold ≤ r.failures + 1 then
        { r with
          failures := r.failures + 1
          lockedUntil := max r.lockedUntil (m.time + m.lockSeconds (r.failures + 1) * second) }
      else { r with failures := r.failures + 1 }

theorem registerAuthFailure_eq (m : AuthManager ν κ) (username : Text) (srcIp : Option Text) :
    m.registerAuthFailure username srcIp = { m with
      failTracker := m.failTracker.set (failKey username srcIp)
        (m.registered (m.failTracker.get? (failKey username srcIp))) } := by
  unfold registerAuthFailure registered
  dsimp only
  cases m.failTracker.get? (failKey username srcIp) with
  | none => rfl
  | some r =>
      dsimp only [lockSeconds]
      split
      · rfl
      · split <;> rfl

theorem Record.register (hr : m.Record o w) (htime : t.time = m.time) (hok : t.ok = false) :
    m.Record (some (m.registered o)) (extend m.maxFailWindow t w) := by
  have hfresh : m.Record (some ⟨1, m.time, 0⟩) [t] := by
    refine .kept (by simpa using hok) rfl htime.symm fun hth => ?_
    simp only [List.length_singleton] at hth
    omega
  cases hr with
  | untried => exact hfresh
  | cleared hp =>
      rw [extend, if_pos (.inl hp)]
      exact hfresh
  | dropped _ hover _ =>
      rw [extend, if_pos (.inr (htime ▸ hover))]
      exact hfresh
  | @kept p ps r hall hcount hfirst hlock =>
      by_cases hover : r.firstFailure + m.maxFailWindow * second < m.time
      · rw [extend, if_pos (.inr (by rw [← hfirst, htime]; exact hover))]
        simpa only [registered, hover, if_true] using hfresh
      · have hextend : extend m.maxFailWindow t (p :: ps) = t :: p :: ps := by
          rw [extend, if_neg]
          rw [← hfirst, htime, hall p List.mem_cons_self]
          simp [hover]
        rw [hextend]
        have hall' : ∀ q ∈ t :: p :: ps, q.ok = false := List.forall_mem_cons.mpr ⟨hok, hall⟩
        simp only [registered, hover, if_false]
        split
        · refine .kept hall' (by simp [hcount]) (by simp [hfirst]) fun _ => ?_
          simp only [htime, List.length_cons, hcount]
          omega
        · refine .kept hall' (by simp [hcount]) (by simp [hfirst]) fun hth => ?_
          simp only [List.length_cons] at hth hcount
          omega

theorem Record.clear (t : Try) (w : List Try) (hok : t.ok = true) : m.Record none (Login.extend m.maxFailWindow t w) := by
  cases w with
  | nil => exact .cleared hok
  | cons p ps =>
      rw [Login.extend]
      split <;> exact .cleared hok

/-- One more try, which waits for the lock unless it was in force. -/
theorem Paced.extend (hp : m.Paced w) (hr : m.Record o w) (htime : t.time = m.time)
    (hlock : t.locked = false → ∀ r ∈ o, ¬ m.time < r.lockedUntil) : m.Paced (extend m.maxFailWindow t w) := by
  have hfresh : m.Paced [t] := by
    constructor <;> simp [htime]
  cases w with
  | nil => exact hfresh
  | cons p ps =>
      rw [Login.extend]
      split
      · exact hfresh
      · rename_i hopen
        simp only [not_or, Bool.not_eq_true, not_lt] at hopen
        refine ⟨?_, ?_, ?_⟩
        · simpa using hopen.2
        · simp [htime]
        · simp only [List.head?_cons, Option.mem_some_iff, forall_eq', List.forall_mem_cons, started_cons]
          rintro ⟨ht, hall⟩
          have hserved := hp.served p rfl (List.forall_mem_cons.mpr hall)
          cases hr with
          | cleared hok =>
              rw [hok] at hopen
              cases hopen.1
          | dropped _ hover _ => omega
          | kept _ _ _ hrun =>
              have hno := hlock ht _ rfl
              by_cases hle : max 2 m.failureThreshold ≤ (p :: ps).length
              · rw [List.length_cons, Finset.sum_Ico_succ_top hle, Nat.add_mul]
                have := hrun hle
                omega
              · rw [List.length_cons, Finset.Ico_eq_empty (by omega)]
                have hpast := hp.past p rfl
                rw [Finset.Ico_eq_empty (by omega)] at hserved
                simp only [Finset.sum_empty] at hserved ⊢
                omega

/-- Until the lock that the last failure began has run out, it is in force. -/
theorem Record.locked {p : Try} {ps : List Try} (hr : m.Record o (p :: ps)) (hok : p.ok = false)
    (hth : max 2 m.failureThreshold ≤ (p :: ps).length)
    (htime : m.time < p.time + m.lockSeconds (p :: ps).length * second) : ∃ r ∈ o, m.time < r.lockedUntil := by
  cases hr with
  | cleared h =>
      rw [hok] at h
      cases h
  | dropped _ _ hserved =>
      have := hserved hth
      omega
  | @kept _ _ r _ _ _ hlock =>
      have := hlock hth
      exact ⟨r, rfl, by omega⟩

/-! ## The records of all pairs -/

/-- The records stand for the tries that were made. -/
structure Tracked (m : AuthManager ν κ) (tries : List Try) : Prop where
  record : ∀ pair, m.Record (m.failTracker.get? pair) (counted Surface.asks m.maxFailWindow pair tries)
  paced : ∀ pair, m.Paced (counted Surface.asks m.maxFailWindow pair tries)

theorem Tracked.agrees (h : m.Tracked ts) (ha : m.Agrees m') (hf : m'.failTracker = m.failTracker) : m'.Tracked ts where
  record pair := by
    rw [hf, ha.maxFailWindow]
    exact (h.record pair).agrees ha
  paced pair := by
    rw [ha.maxFailWindow]
    exact (h.paced pair).agrees ha

theorem isUserLocked_agrees (m : AuthManager ν κ) (username : Text) (srcIp : Option Text) :
    m.Agrees (m.isUserLocked username srcIp).2 := by
  unfold isUserLocked
  dsimp only
  split
  · exact .refl m
  · split
    · exact .refl m
    · split <;> exact ⟨rfl, rfl, rfl, rfl⟩

/-- A record stays as it is, or it is of a pair that is not locked. -/
theorem get?_isUserLocked (m : AuthManager ν κ) (username : Text) (srcIp : Option Text) (pair : Text × Text) :
    (m.isUserLocked username srcIp).2.failTracker.get? pair = m.failTracker.get? pair ∨
      (∀ r ∈ m.failTracker.get? pair, ¬ m.time < r.lockedUntil) ∧
        (m.isUserLocked username srcIp).2.failTracker.get? pair = (m.failTracker.get? pair).bind m.unlocked := by
  unfold isUserLocked
  dsimp only
  cases hr : m.failTracker.get? (failKey username srcIp) with
  | none => exact .inl rfl
  | some r =>
      by_cases hlock : m.time < r.lockedUntil
      · simp only [hlock, if_true]
        exact .inl trivial
      · simp only [hlock, if_false]
        by_cases hpair : pair = failKey username srcIp
        · subst hpair
          refine .inr ⟨fun r' hr' => ?_, ?_⟩
          · cases hr.symm.trans hr'
            exact hlock
          · rw [hr, Option.bind_some, unlocked]
            split
            · exact Dict.get?_pop_self _ _
            · exact Dict.get?_set_self _ _ _
        · refine .inl ?_
          split <;> simp [Dict.get?_pop, Dict.get?_set, hpair]

theorem Tracked.ask (h : m.Tracked ts) (username : Text) (srcIp : Option Text) :
    (m.isUserLocked username srcIp).2.Tracked ts := by
  have ha := isUserLocked_agrees m username srcIp
  constructor
  · intro pair
    rw [ha.maxFailWindow]
    rcases get?_isUserLocked m username srcIp pair with heq | ⟨hno, heq⟩
    · rw [heq]
      exact (h.record pair).agrees ha
    · rw [heq]
      exact ((h.record pair).ask hno).agrees ha
  · intro pair
    rw [ha.maxFailWindow]
    exact (h.paced pair).agrees ha

theorem Tracked.wait (h : m.Tracked ts) (d : Nat) : ({ m with time := m.time + d } : AuthManager ν κ).Tracked ts where
  record pair := (h.record pair).wait d
  paced pair := ⟨(h.paced pair).within, fun p hp => Nat.le_add_right_of_le ((h.paced pair).past p hp), (h.paced pair).served⟩

/-- HTTP Basic tries count for no record. -/
theorem Tracked.basic (h : m.Tracked ts) (ht : t.surface = .basic) : m.Tracked (t :: ts) := by
  have heq (pair : Text × Text) : counted Surface.asks m.maxFailWindow pair (t :: ts) = counted Surface.asks m.maxFailWindow pair ts := by
    simp [counted, ht, Surface.asks]
  constructor <;> intro pair <;> rw [heq]
  · exact h.record pair
  · exact h.paced pair

/-- A login on another surface, of which the record is told. -/
theorem Tracked.settle (h : m.Tracked ts) (ht : t.surface ≠ .basic) (htime : t.time = m.time)
    (hpair : t.pair = failKey username srcIp) (hlock : t.locked = false → ¬ m.Locked username srcIp) :
    (if t.ok then m.clearAuthFailures username srcIp else m.registerAuthFailure username srcIp).Tracked (t :: ts) := by
  have hon : t.surface.asks = true := by
    revert ht
    cases t.surface <;> simp [Surface.asks]
  set m' := if t.ok then m.clearAuthFailures username srcIp else m.registerAuthFailure username srcIp with hm'
  have ha : m.Agrees m' := by
    rw [hm', registerAuthFailure_eq]
    split <;> exact ⟨rfl, rfl, rfl, rfl⟩
  have hother (pair : Text × Text) (hne : pair ≠ failKey username srcIp) : m'.failTracker.get? pair = m.failTracker.get? pair := by
    rw [hm', registerAuthFailure_eq]
    split <;> simp [clearAuthFailures, Dict.get?_pop, Dict.get?_set, hne]
  have hself : m'.failTracker.get? (failKey username srcIp) =
      if t.ok then none else some (m.registered (m.failTracker.get? (failKey username srcIp))) := by
    rw [hm', registerAuthFailure_eq]
    split <;> simp [clearAuthFailures]
  have hno : t.locked = false → ∀ r ∈ m.failTracker.get? (failKey username srcIp), ¬ m.time < r.lockedUntil :=
    fun hl r hr hlt => hlock hl ⟨r, hr, hlt⟩
  constructor
  · intro pair
    rw [ha.maxFailWindow]
    by_cases hp : pair = failKey username srcIp
    · subst hp
      rw [counted, if_pos ⟨hpair, hon⟩, hself]
      refine Record.agrees ?_ ha
      split
      · exact .clear t _ ‹_›
      · exact (h.record _).register htime (Bool.not_eq_true _ ▸ ‹_›)
    · rw [counted, if_neg (fun hc => hp (hc.1.symm.trans hpair)), hother pair hp]
      exact (h.record pair).agrees ha
  · intro pair
    rw [ha.maxFailWindow]
    by_cases hp : pair = failKey username srcIp
    · subst hp
      rw [counted, if_pos ⟨hpair, hon⟩]
      exact ((h.paced _).extend (h.record _) htime hno).agrees ha
    · rw [counted, if_neg (fun hc => hp (hc.1.symm.trans hpair))]
      exact (h.paced pair).agrees ha

end AuthManager

/-! ## Answers to a challenge -/

namespace AuthManager

variable {crypto : Crypto ν κ} {m : AuthManager ν κ} {username : Text} {srcIp : Option Text}

theorem registerAuthFailure_agrees (m : AuthManager ν κ) (username : Text) (srcIp : Option Text) (challenges : Dict Text (Challenge ν Text)) :
    (m.registerAuthFailure username srcIp).Agrees
        (({ m with pwHmacChallenges := challenges } : AuthManager ν κ).registerAuthFailure username srcIp) ∧
      (({ m with pwHmacChallenges := challenges } : AuthManager ν κ).registerAuthFailure username srcIp).failTracker =
        (m.registerAuthFailure username srcIp).failTracker := by
  simp only [registerAuthFailure_eq]
  exact ⟨⟨rfl, rfl, rfl, rfl⟩, rfl⟩

/-- An answer of a user who is not locked is a login like the others. -/
theorem verifyPasswordHmac_settles (crypto : Crypto ν κ) (hmac : Text) (h : (m.isUserLocked username srcIp).1 = false) :
    let m₁ := (m.isUserLocked username srcIp).2
    let m₂ := if (m.verifyPasswordHmac crypto username hmac srcIp).1 then m₁.clearAuthFailures username srcIp
      else m₁.registerAuthFailure username srcIp
    m₂.Agrees (m.verifyPasswordHmac crypto username hmac srcIp).2 ∧
      (m.verifyPasswordHmac crypto username hmac srcIp).2.failTracker = m₂.failTracker := by
  unfold verifyPasswordHmac
  rcases hl : m.isUserLocked username srcIp with ⟨locked, m₁⟩
  rw [hl] at h
  dsimp only at h ⊢
  subst h
  simp only [Bool.false_eq_true, if_false]
  cases m₁.pwHmacChallenges.get? username with
  | none => exact ⟨.refl _, rfl⟩
  | some e =>
      dsimp only
      split
      · exact registerAuthFailure_agrees m₁ username srcIp _
      · split
        · exact ⟨⟨rfl, rfl, rfl, rfl⟩, rfl⟩
        · exact registerAuthFailure_agrees m₁ username srcIp _

theorem Tracked.startPasswordHmacChallenge {ts : List Try} {m' : AuthManager ν κ} {nonce : ν} (h : m.Tracked ts)
    (hs : m.startPasswordHmacChallenge username nonce = some m') : m'.Tracked ts := by
  unfold AuthManager.startPasswordHmacChallenge at hs
  split at hs
  · cases hs
  · split at hs
    · cases hs
    · cases hs
      exact h.agrees ⟨rfl, rfl, rfl, rfl⟩ rfl

theorem Tracked.startPubkeyChallenge {ts : List Try} {m' : AuthManager ν κ} {nonce : ν} {keyId : Option Text} {id : Text}
    (h : m.Tracked ts) (hs : m.startPubkeyChallenge crypto username keyId nonce = some (id, m')) : m'.Tracked ts := by
  unfold AuthManager.startPubkeyChallenge at hs
  split at hs
  · cases hs
  · split at hs
    · cases hs
    · cases hs
      exact h.agrees ⟨rfl, rfl, rfl, rfl⟩ rfl

theorem Tracked.verifyPubkeyResponse {ts : List Try} (h : m.Tracked ts) (keyId signature : Text) :
    (m.verifyPubkeyResponse crypto username keyId signature).2.Tracked ts := by
  unfold AuthManager.verifyPubkeyResponse
  split
  · exact h
  · dsimp only
    split
    · exact h.agrees ⟨rfl, rfl, rfl, rfl⟩ rfl
    · split
      · exact h.agrees ⟨rfl, rfl, rfl, rfl⟩ rfl
      · exact h

end AuthManager

namespace Listener

variable {crypto : Crypto ν κ} {s : Listener ν κ} {ts : List Try}

@[simp] theorem manager_finish {σ : Type} (s : Listener ν κ) (c : Nat) (username : Text) (ok : Bool)
    (consumed : Option (Challenge ν σ)) : (s.finish c username ok consumed).manager = s.manager := by
  cases ok <;> rfl

theorem tracked_authHmac (h : s.manager.Tracked ts) (c : Nat) (address username : Text) (nonce : ν) :
    (s.authHmac c address username nonce).manager.Tracked ts := by
  unfold authHmac
  have hask := h.ask username (srcIp address)
  dsimp only
  split
  · exact hask
  · split
    · exact hask
    · rename_i hstart
      have hstarted := hask.startPasswordHmacChallenge hstart
      split
      · exact hask
      · exact hstarted

theorem tracked_authPubkey (h : s.manager.Tracked ts) (c : Nat) (username : Text) (keyId : Option Text) (nonce : ν) :
    (s.authPubkey crypto c username keyId nonce).manager.Tracked ts := by
  unfold authPubkey
  split
  · exact h
  · rename_i hstart
    split
    · exact h
    · exact h.startPubkeyChallenge hstart

end Listener

/-! ## The surfaces -/

namespace LoginServer

variable {crypto : Crypto ν κ} {checks : Checks} {s s' : LoginServer ν κ} {username : Text} {srcIp : Option Text}
  {surface : Surface}

/-- What holds of the surfaces in every run. -/
structure Inv (s : LoginServer ν κ) : Prop where
  tracked : s.manager.Tracked s.tries
  asked : ∀ t ∈ s.tries, t.surface ≠ .basic → t.asked = some false
  unlocked : ∀ t ∈ s.tries, t.surface ≠ .basic → t.surface ≠ .telnet → t.locked = false
  prompts : ∀ t peerIp attempts username asked,
    s.telnet.get? t = some (.password peerIp attempts username asked) → asked = false

theorem Inv.setManager (h : s.Inv) {m : AuthManager ν κ} (hm : m.Tracked s.tries) : (s.setManager m).Inv :=
  ⟨hm, h.asked, h.unlocked, h.prompts⟩

theorem Inv.setTelnet (h : s.Inv) {t : Nat} {login : TelnetLogin}
    (hl : ∀ peerIp attempts username asked, login = .password peerIp attempts username asked → asked = false) :
    (s.setTelnet t login).Inv := by
  refine ⟨h.tracked, h.asked, h.unlocked, fun t' peerIp attempts username asked ht => ?_⟩
  simp only [LoginServer.setTelnet, Dict.get?_set] at ht
  split at ht
  · exact hl _ _ _ _ (Option.some.inj ht)
  · exact h.prompts _ _ _ _ _ ht

theorem Inv.setSsh (h : s.Inv) (c : Nat) (login : SshLogin) : (s.setSsh c login).Inv :=
  ⟨h.tracked, h.asked, h.unlocked, h.prompts⟩

theorem authenticate_snd (checks : Checks) (s : LoginServer ν κ) (username password : Text) :
    ∃ cache, (s.authenticate checks username password).2 = { s with authCache := cache } := by
  simp only [authenticate]
  split
  · exact ⟨_, rfl⟩
  · dsimp only
    split <;> exact ⟨_, rfl⟩

theorem Inv.cache (h : s.Inv) (cache : Dict Text Nat) : ({ s with authCache := cache } : LoginServer ν κ).Inv :=
  ⟨h.tracked, h.asked, h.unlocked, h.prompts⟩

theorem Inv.basic (h : s.Inv) (ok : Bool) : (s.note .basic username srcIp none ok).Inv where
  tracked := h.tracked.basic rfl
  asked := List.forall_mem_cons.mpr ⟨fun hne => absurd rfl hne, h.asked⟩
  unlocked := List.forall_mem_cons.mpr ⟨fun hne => absurd rfl hne, h.unlocked⟩
  prompts := h.prompts

/-- A try on a surface that asks, with what becomes of the record. -/
theorem Inv.note (h : s.Inv) (hs : surface ≠ .basic) (hlock : surface ≠ .telnet → ¬ s.manager.Locked username srcIp) (ok : Bool)
    {m : AuthManager ν κ} (hm : (if ok then s.manager.clearAuthFailures username srcIp
      else s.manager.registerAuthFailure username srcIp).Agrees m)
    (hf : m.failTracker = (if ok then s.manager.clearAuthFailures username srcIp
      else s.manager.registerAuthFailure username srcIp).failTracker) :
    ((s.note surface username srcIp (some false) ok).setManager m).Inv where
  tracked := by
    have ht := h.tracked.settle (t := ⟨surface, _, _, some false, s.manager.Locked username srcIp, ok⟩) hs rfl rfl of_decide_eq_false
    exact ht.agrees hm hf
  asked := List.forall_mem_cons.mpr ⟨fun _ => rfl, h.asked⟩
  unlocked := List.forall_mem_cons.mpr ⟨fun _ ht => decide_eq_false (hlock ht), h.unlocked⟩
  prompts := h.prompts

theorem Inv.settle (h : s.Inv) (hs : surface ≠ .basic) (hlock : surface ≠ .telnet → ¬ s.manager.Locked username srcIp)
    (ok : Bool) : ((s.note surface username srcIp (some false) ok).settle username srcIp ok).Inv :=
  h.note hs hlock ok (.refl _) rfl

theorem isUserLocked_false {m : AuthManager ν κ} (h : (m.isUserLocked username srcIp).1 = false) :
    ¬ (m.isUserLocked username srcIp).2.Locked username srcIp := by
  have hno : ¬ m.Locked username srcIp := by
    rw [← AuthManager.isUserLocked_iff, h]
    exact Bool.false_ne_true
  rintro ⟨r, hr, hlt⟩
  rw [(AuthManager.isUserLocked_agrees m username srcIp).time] at hlt
  rcases AuthManager.get?_isUserLocked m username srcIp (AuthManager.failKey username srcIp) with heq | ⟨-, heq⟩
  · rw [heq] at hr
    exact hno ⟨r, hr, hlt⟩
  · rw [heq] at hr
    obtain ⟨r', -, hr'⟩ := Option.bind_eq_some_iff.mp hr
    rw [AuthManager.unlocked] at hr'
    split at hr'
    · cases hr'
    · cases hr'
      exact absurd hlt (Nat.not_lt_zero _)

theorem Inv.form (h : s.Inv) (password : Text) : (s.handleLogin checks username password srcIp).Inv := by
  unfold handleLogin
  have hask := h.setManager (h.tracked.ask username srcIp)
  dsimp only
  split
  · exact h
  · split
    · exact hask
    · rename_i hlocked
      rw [Bool.not_eq_true] at hlocked
      obtain ⟨cache, hcache⟩ :=
        authenticate_snd checks (s.setManager (s.manager.isUserLocked username srcIp).2) username password
      rw [hcache, hlocked]
      exact (hask.cache cache).settle (by decide) (fun _ => isUserLocked_false hlocked) _

theorem Inv.telnetLine (h : s.Inv) {t : Nat} {line : Text} {login : TelnetLogin} (hl : s.telnet.get? t = some login)
    (hstep : s.runLogin checks t line login = some s') : s'.Inv := by
  cases login with
  | login peerIp attempts =>
      simp only [runLogin] at hstep
      have hnext : (s.setTelnet t (nextTurn peerIp attempts)).Inv := by
        refine h.setTelnet fun _ _ _ _ heq => ?_
        rw [nextTurn] at heq
        split at heq <;> cases heq
      split at hstep
      · cases hstep
        exact hnext
      · cases hstep
        refine (h.setManager (h.tracked.ask _ _)).setTelnet fun _ _ _ _ heq => ?_
        split at heq
        · cases heq
        · rename_i hlocked
          cases heq
          exact Bool.not_eq_true _ ▸ hlocked
  | password peerIp attempts username asked =>
      have hasked : asked = false := h.prompts t peerIp attempts username asked hl
      subst hasked
      obtain ⟨cache, hcache⟩ := authenticate_snd checks s username line
      simp only [runLogin, hcache] at hstep
      cases hstep
      refine ((h.cache cache).settle (by decide) (fun hne => absurd rfl hne) _).setTelnet fun _ _ _ _ heq => ?_
      rw [nextTurn] at heq
      split at heq
      · cases heq
      · split at heq <;> cases heq
  | finished username => cases hstep

theorem Inv.sshPassword (h : s.Inv) (c : Nat) (login : SshLogin) (password : Text) :
    (s.validatePassword checks c login password).Inv := by
  unfold validatePassword
  have hask := h.setManager (h.tracked.ask login.pendingUsername (some login.peerIp))
  dsimp only
  split
  · exact h
  · split
    · exact hask
    · rename_i hlocked
      rw [Bool.not_eq_true] at hlocked
      obtain ⟨cache, hcache⟩ := authenticate_snd checks
        ((s.setManager (s.manager.isUserLocked login.pendingUsername (some login.peerIp)).2).setSsh c
          { login with pwAttempts := login.pwAttempts + 1 }) login.pendingUsername password
      rw [hcache, hlocked]
      exact ((hask.setSsh _ _).cache cache).settle (by decide) (fun _ => isUserLocked_false hlocked) _

theorem Inv.sshPublicKey (h : s.Inv) (login : SshLogin) (key : Text) : (s.validatePublicKey checks login key).Inv := by
  unfold validatePublicKey
  have hask := h.setManager (h.tracked.ask login.pendingUsername (some login.peerIp))
  dsimp only
  split
  · exact hask
  · rename_i hlocked
    rw [Bool.not_eq_true] at hlocked
    split
    · rw [hlocked]
      exact hask.settle (by decide) (fun _ => isUserLocked_false hlocked) true
    · exact hask

/-! ## The client listener -/

theorem Inv.withListener (h : s.Inv) {l : Listener ν κ} (hl : l.manager.Tracked s.tries) :
    ({ s with listener := l } : LoginServer ν κ).Inv := ⟨hl, h.asked, h.unlocked, h.prompts⟩

variable [DecidableEq ν] {a : Act ν} {l : Listener ν κ}

theorem Inv.answer (h : s.Inv) {hmac : Text} (hm : l.manager = (s.manager.verifyPasswordHmac crypto username hmac srcIp).2) :
    ({ (if (s.manager.isUserLocked username srcIp).1 then s.setManager (s.manager.isUserLocked username srcIp).2
      else (s.setManager (s.manager.isUserLocked username srcIp).2).note .client username srcIp
        (some (s.manager.isUserLocked username srcIp).1) (s.manager.verifyPasswordHmac crypto username hmac srcIp).1) with
      listener := l } : LoginServer ν κ).Inv := by
  have hask := h.setManager (h.tracked.ask username srcIp)
  split
  · rename_i hlocked
    refine hask.withListener ?_
    rw [hm]
    unfold AuthManager.verifyPasswordHmac
    dsimp only
    rw [if_pos hlocked]
    exact hask.tracked
  · rename_i hlocked
    rw [Bool.not_eq_true] at hlocked
    obtain ⟨hagrees, hf⟩ := AuthManager.verifyPasswordHmac_settles crypto hmac hlocked
    rw [← hm] at hagrees hf
    rw [hlocked]
    have hne : Surface.client ≠ .basic := by decide
    have hinv := hask.note hne (fun _ => isUserLocked_false hlocked) _ hagrees hf
    exact hinv.withListener hinv.tracked

theorem Inv.client (h : s.Inv) (ha : a.conn ≠ none) (hstep : s.listener.step crypto a = some l) :
    ({ s.noteAnswer crypto a with listener := l } : LoginServer ν κ).Inv := by
  cases a with
  | connect c address =>
      simp only [Listener.step] at hstep
      split at hstep
      · cases hstep
        exact h.withListener h.tracked
      · cases hstep
  | login c line nonce =>
      simp only [Listener.step] at hstep
      split at hstep
      · split at hstep
        · cases hstep
        · split at hstep <;> cases hstep <;> refine h.withListener ?_
          · exact Listener.tracked_authPubkey (s := { s.listener with drawn := nonce :: s.listener.drawn }) h.tracked _ _ _ _
          · exact Listener.tracked_authHmac (s := { s.listener with drawn := nonce :: s.listener.drawn }) h.tracked _ _ _ _
          · exact h.tracked
      · cases hstep
  | answer c line =>
      simp only [Listener.step] at hstep
      cases hc : s.listener.conns.get? c with
      | none => simp [hc] at hstep
      | some conn =>
          rw [hc] at hstep
          cases conn with
          | opened address => cases hstep
          | finished username => cases hstep
          | pubkey username keyId sent =>
              cases hstep
              have hnote : s.noteAnswer crypto (.answer c line) = s := by simp [noteAnswer, hc]
              rw [hnote]
              refine h.withListener ?_
              unfold Listener.answerPubkey
              split
              · exact h.tracked
              · rw [Listener.manager_finish]
                exact h.tracked.verifyPubkeyResponse _ _
          | password username srcIp sent =>
              cases hstep
              cases hline : hmacAnswer line with
              | none =>
                  have hnote : s.noteAnswer crypto (.answer c line) = s := by simp [noteAnswer, hc, hline]
                  rw [hnote]
                  refine h.withListener ?_
                  rw [Listener.answerHmac, hline]
                  exact h.tracked
              | some hmac =>
                  simp only [noteAnswer, hc, hline]
                  refine h.answer ?_
                  rw [Listener.answerHmac, hline, Listener.manager_finish]
  | leave c =>
      simp only [Listener.step] at hstep
      split at hstep
      · cases hstep
      · cases hstep
      · cases hstep
        exact h.withListener h.tracked
  | _ => exact absurd rfl ha

theorem inv_step (act : LoginAct ν) (h : s.Inv) (hstep : s.step crypto checks act = some s') : s'.Inv := by
  cases act with
  | form username password clientIp =>
      cases hstep
      exact h.form password
  | basic username password remote =>
      cases hstep
      obtain ⟨cache, hcache⟩ := authenticate_snd checks s username password
      unfold basicAuthResult
      dsimp only
      rw [hcache]
      exact (h.cache cache).basic _
  | telnetConnect t peerIp =>
      simp only [step] at hstep
      split at hstep
      · cases hstep
        exact h.setTelnet fun _ _ _ _ heq => by cases heq
      · cases hstep
  | telnetLine t line =>
      obtain ⟨login, hl, hrun⟩ := Option.bind_eq_some_iff.mp hstep
      exact h.telnetLine hl hrun
  | telnetLeave t =>
      obtain ⟨login, -, rfl⟩ := Option.map_eq_some_iff.mp hstep
      exact h.setTelnet fun _ _ _ _ heq => by cases heq
  | sshConnect c peerIp =>
      simp only [step] at hstep
      split at hstep
      · cases hstep
        exact h.setSsh c _
      · cases hstep
  | sshBeginAuth c username =>
      obtain ⟨login, -, rfl⟩ := Option.map_eq_some_iff.mp hstep
      exact h.setSsh c _
  | sshPassword c password =>
      obtain ⟨login, -, rfl⟩ := Option.map_eq_some_iff.mp hstep
      exact h.sshPassword c login password
  | sshPublicKey c key =>
      obtain ⟨login, -, rfl⟩ := Option.map_eq_some_iff.mp hstep
      exact h.sshPublicKey login key
  | client a =>
      simp only [step] at hstep
      split at hstep
      · cases hstep
      · obtain ⟨l, hl, rfl⟩ := Option.map_eq_some_iff.mp hstep
        exact h.client ‹_› hl
  | askLocked username srcIp =>
      cases hstep
      exact h.setManager (h.tracked.ask username srcIp)
  | wait time =>
      cases hstep
      exact h.setManager (h.tracked.wait time)
  | updateConfig users publicKeys =>
      simp only [step] at hstep
      obtain ⟨l, hl, rfl⟩ := Option.map_eq_some_iff.mp hstep
      cases hl
      exact (h.cache ∅).withListener (h.tracked.agrees ⟨rfl, rfl, rfl, rfl⟩ rfl)

theorem inv_start (time : Nat) (users : List (Text × Option Text)) (publicKeys : List KeyRecord)
    (window threshold base : Option Nat) : (start time users publicKeys window threshold base : LoginServer ν κ).Inv where
  tracked := ⟨fun _ => .untried, fun _ => by constructor <;> simp [start, Login.counted]⟩
  asked := by simp [start]
  unlocked := by simp [start]
  prompts := by simp [start]

theorem Inv.guarded (h : s.Inv) : s.Guarded where
  asked := h.asked
  unlocked := h.unlocked
  registered pair r hr := by
    have hrec := h.tracked.record pair
    rw [hr] at hrec
    unfold LoginServer.counted
    generalize Login.counted Surface.asks s.manager.maxFailWindow pair s.tries = w at hrec ⊢
    cases hrec with
    | kept hok hcount _ _ => exact ⟨hcount, hok⟩
  kept pair hr := by
    have hrec := h.tracked.record pair
    rw [hr] at hrec
    unfold LoginServer.counted
    generalize Login.counted Surface.asks s.manager.maxFailWindow pair s.tries = w at hrec ⊢
    cases hrec with
    | untried => simp
    | cleared hok => simp [hok]
    | dropped _ hover _ => simp [hover]
  bound pair hall := by
    have hpaced := h.tracked.paced pair
    unfold LoginServer.counted at hall ⊢
    generalize Login.counted Surface.asks s.manager.maxFailWindow pair s.tries = w at hpaced hall ⊢
    cases w with
    | nil => simp
    | cons p ps =>
        have hserved := hpaced.served p rfl hall
        have hwithin := hpaced.within p rfl
        have hle : (∑ i ∈ Finset.Ico (max 2 s.manager.failureThreshold) (p :: ps).length, s.manager.lockSeconds i) * second ≤
            s.manager.maxFailWindow * second := by omega
        exact Nat.le_of_mul_le_mul_right hle (by decide)

end LoginServer

end OpenMux.Login
