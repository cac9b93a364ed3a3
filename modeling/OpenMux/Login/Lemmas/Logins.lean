import OpenMux.Login.Lemmas.Challenges

/-!
# Logins that keep apart

What a step does to the tables of the auth manager and to the connections, and that in runs whose logins keep apart the tables
hold the challenges that connections wait at.
-/

namespace OpenMux.Login

open Py

variable {ν κ : Type} {crypto : Crypto ν κ}

/-! ## The auth manager -/

namespace AuthManager

variable {m m' : AuthManager ν κ} {username keyId line : Text} {srcIp : Option Text} {nonce : ν}

/-- The clock and the challenges stay as they are. -/
structure Keeps (m m' : AuthManager ν κ) : Prop where
  time : m'.time = m.time
  pk : m'.pkChallenges = m.pkChallenges
  pw : m'.pwHmacChallenges = m.pwHmacChallenges

theorem applySecurityPolicy_keeps (m : AuthManager ν κ) (window threshold base : Option Nat) :
    m.Keeps (m.applySecurityPolicy window threshold base) := ⟨rfl, rfl, rfl⟩

theorem clearAuthFailures_keeps (m : AuthManager ν κ) (username : Text) (srcIp : Option Text) : m.Keeps (m.clearAuthFailures username srcIp) := ⟨rfl, rfl, rfl⟩

theorem registerAuthFailure_keeps (m : AuthManager ν κ) (username : Text) (srcIp : Option Text) : m.Keeps (m.registerAuthFailure username srcIp) := by
  unfold registerAuthFailure
  dsimp only
  split
  · exact ⟨rfl, rfl, rfl⟩
  · split
    · exact ⟨rfl, rfl, rfl⟩
    · split <;> exact ⟨rfl, rfl, rfl⟩

theorem isUserLocked_keeps (m : AuthManager ν κ) (username : Text) (srcIp : Option Text) : m.Keeps (m.isUserLocked username srcIp).2 := by
  unfold isUserLocked
  dsimp only
  split
  · exact ⟨rfl, rfl, rfl⟩
  · split
    · exact ⟨rfl, rfl, rfl⟩
    · split <;> exact ⟨rfl, rfl, rfl⟩

theorem isUserLocked_iff (m : AuthManager ν κ) (username : Text) (srcIp : Option Text) :
    (m.isUserLocked username srcIp).1 = true ↔ m.Locked username srcIp := by
  unfold isUserLocked Locked
  dsimp only
  cases hr : m.failTracker.get? (failKey username srcIp) with
  | none => simp
  | some r =>
      by_cases hlock : m.time < r.lockedUntil
      · simp [hlock]
      · simp only [hlock, if_false]
        split <;> simp [hlock]

theorem verifyPasswordHmac_locked (crypto : Crypto ν κ) (line : Text) (h : m.Locked username srcIp) :
    (m.verifyPasswordHmac crypto username line srcIp).1 = false ∧
      m.Keeps (m.verifyPasswordHmac crypto username line srcIp).2 := by
  have hlocked := (isUserLocked_iff m username srcIp).mpr h
  unfold verifyPasswordHmac
  dsimp only
  rw [if_pos hlocked]
  exact ⟨rfl, isUserLocked_keeps m username srcIp⟩

/-- A password answer passes the challenge that is kept for the user, and takes it away. -/
structure Spends (crypto : Crypto ν κ) (m : AuthManager ν κ) (username hmac : Text) (r : Bool × AuthManager ν κ) : Prop where
  time : r.2.time = m.time
  pk : r.2.pkChallenges = m.pkChallenges
  pw : r.2.pwHmacChallenges.get? = fun u => if u = username then none else m.pwHmacChallenges.get? u
  passes : r.1 = true ↔ ∃ e, m.pwHmacChallenges.get? username = some e ∧ m.time ≤ e.expiresAt ∧
    crypto.hmacMatches e.secret e.nonceRaw hmac = true

theorem verifyPasswordHmac_spends (crypto : Crypto ν κ) (line : Text) (h : ¬ m.Locked username srcIp) :
    Spends crypto m username line (m.verifyPasswordHmac crypto username line srcIp) := by
  have hkeeps := isUserLocked_keeps m username srcIp
  have hlocked : (m.isUserLocked username srcIp).1 = false := by
    rw [← Bool.not_eq_true, isUserLocked_iff]
    exact h
  unfold verifyPasswordHmac
  rcases hl : m.isUserLocked username srcIp with ⟨locked, m₁⟩
  rw [hl] at hkeeps hlocked
  simp only at hlocked
  subst hlocked
  obtain ⟨htime, hpk, hpw⟩ := hkeeps
  simp only [Bool.false_eq_true, if_false]
  rw [hpw]
  cases he : m.pwHmacChallenges.get? username with
  | none =>
      have hr := registerAuthFailure_keeps m₁ username srcIp
      refine ⟨hr.time.trans htime, hr.pk.trans hpk, ?_, by simp [he]⟩
      funext u
      dsimp only
      rw [hr.pw, hpw]
      split
      · rename_i hu
        rw [hu, he]
      · rfl
  | some e =>
      dsimp only
      have hr := registerAuthFailure_keeps
        ({ m₁ with pwHmacChallenges := m.pwHmacChallenges.pop username } : AuthManager ν κ) username srcIp
      have hpop : (m.pwHmacChallenges.pop username).get? = fun u => if u = username then none else m.pwHmacChallenges.get? u := by
        funext u
        rw [Dict.get?_pop]
      split
      · rename_i hexpired
        refine ⟨hr.time.trans htime, hr.pk.trans hpk, (congrArg Dict.get? hr.pw).trans hpop, ?_⟩
        rw [htime] at hexpired
        simp only [Bool.false_eq_true, he, Option.some.injEq, exists_eq_left', false_iff, not_and]
        omega
      · rename_i hexpired
        rw [htime] at hexpired
        have hle : m.time ≤ e.expiresAt := by omega
        split
        · rename_i hmatch
          exact ⟨htime, hpk, hpop, iff_of_true rfl ⟨e, he, hle, hmatch⟩⟩
        · rename_i hmatch
          refine ⟨hr.time.trans htime, hr.pk.trans hpk, (congrArg Dict.get? hr.pw).trans hpop, ?_⟩
          simp [he, hmatch]

/-- A signature passes the challenge that is kept for the user and the key id, and takes it away then or when it is too old. -/
structure Verifies (crypto : Crypto ν κ) (m : AuthManager ν κ) (username keyId signature : Text) (r : Bool × AuthManager ν κ) :
    Prop where
  time : r.2.time = m.time
  pw : r.2.pwHmacChallenges = m.pwHmacChallenges
  pk : r.2.pkChallenges = m.pkChallenges ∧ r.1 = false ∨
    ∃ e, m.pkChallenges.get? (username, keyId) = some e ∧ (e.expiresAt < m.time ∨ r.1 = true) ∧
      r.2.pkChallenges = m.pkChallenges.pop (username, keyId)
  passes : r.1 = true ↔ ∃ e, m.pkChallenges.get? (username, keyId) = some e ∧ m.time ≤ e.expiresAt ∧
    crypto.verify e.secret e.nonceRaw signature = true

theorem verifyPubkeyResponse_verifies (crypto : Crypto ν κ) (m : AuthManager ν κ) (username keyId signature : Text) :
    Verifies crypto m username keyId signature (m.verifyPubkeyResponse crypto username keyId signature) := by
  unfold verifyPubkeyResponse
  cases he : m.pkChallenges.get? (username, keyId) with
  | none => exact ⟨rfl, rfl, .inl ⟨rfl, rfl⟩, by simp [he]⟩
  | some e =>
      dsimp only
      split
      · rename_i hexpired
        refine ⟨rfl, rfl, .inr ⟨e, he, .inl hexpired, rfl⟩, ?_⟩
        simp only [Bool.false_eq_true, he, Option.some.injEq, exists_eq_left', false_iff, not_and]
        omega
      · split
        · rename_i hexpired hmatch
          exact ⟨rfl, rfl, .inr ⟨e, he, .inr rfl, rfl⟩, iff_of_true rfl ⟨e, he, by omega, hmatch⟩⟩
        · rename_i hmatch
          exact ⟨rfl, rfl, .inl ⟨rfl, rfl⟩, by simp [he, hmatch]⟩

end AuthManager

/-! ## Connections -/

namespace Listener

variable {s s' : Listener ν κ} {c c' : Nat} {conn : Conn ν κ} {m' : AuthManager ν κ}

@[simp] theorem manager_setConn : (s.setConn c conn).manager = s.manager := rfl

@[simp] theorem drawn_setConn : (s.setConn c conn).drawn = s.drawn := rfl

@[simp] theorem accepted_setConn : (s.setConn c conn).accepted = s.accepted := rfl

theorem bind_setConn {β : Type} (f : Conn ν κ → Option β) :
    ((s.setConn c conn).conns.get? c').bind f = if c' = c then f conn else (s.conns.get? c').bind f := by
  unfold setConn
  rw [Dict.get?_set]
  split <;> rfl

theorem passwordWait_setConn :
    (s.setConn c conn).passwordWait c' = if c' = c then conn.passwordWait else s.passwordWait c' := bind_setConn _

theorem pubkeyWait_setConn :
    (s.setConn c conn).pubkeyWait c' = if c' = c then conn.pubkeyWait else s.pubkeyWait c' := bind_setConn _

theorem nonceSent_setConn : (s.setConn c conn).nonceSent c' = if c' = c then conn.nonce else s.nonceSent c' := bind_setConn _

theorem nonceSent_of_password {u : Text} {sent : Sent ν Text} (h : s.passwordWait c = some (u, sent)) :
    s.nonceSent c = some sent.challenge.nonceRaw := by
  unfold passwordWait at h
  unfold nonceSent
  cases hc : s.conns.get? c with
  | none => simp [hc] at h
  | some conn =>
      cases conn <;> simp_all [Conn.passwordWait, Conn.nonce]

theorem nonceSent_of_pubkey {k : Text × Text} {sent : Sent ν κ} (h : s.pubkeyWait c = some (k, sent)) :
    s.nonceSent c = some sent.challenge.nonceRaw := by
  unfold pubkeyWait at h
  unfold nonceSent
  cases hc : s.conns.get? c with
  | none => simp [hc] at h
  | some conn =>
      cases conn <;> simp_all [Conn.pubkeyWait, Conn.nonce]

/-- The tables hold what connections wait at, and no nonce is out twice. -/
structure Inv (s : Listener ν κ) : Prop where
  passwords : Tracks s.manager.time s.manager.pwHmacChallenges.get? s.passwordWait
  pubkeys : Tracks s.manager.time s.manager.pkChallenges.get? s.pubkeyWait
  pwDrawn : ∀ {u e}, s.manager.pwHmacChallenges.get? u = some e → e.nonceRaw ∈ s.drawn
  pkDrawn : ∀ {k e}, s.manager.pkChallenges.get? k = some e → e.nonceRaw ∈ s.drawn
  sentDrawn : ∀ {c n}, s.nonceSent c = some n → n ∈ s.drawn
  distinct : ∀ {c c' n}, s.nonceSent c = some n → s.nonceSent c' = some n → c = c'

theorem Inv.keeps (h : s.Inv) (hm : s.manager.Keeps m') : ({ s with manager := m' } : Listener ν κ).Inv where
  passwords := by
    show Tracks m'.time m'.pwHmacChallenges.get? s.passwordWait
    rw [hm.time, hm.pw]
    exact h.passwords
  pubkeys := by
    show Tracks m'.time m'.pkChallenges.get? s.pubkeyWait
    rw [hm.time, hm.pk]
    exact h.pubkeys
  pwDrawn he := h.pwDrawn (hm.pw ▸ he)
  pkDrawn he := h.pkDrawn (hm.pk ▸ he)
  sentDrawn := h.sentDrawn
  distinct := h.distinct

/-- A connection waits at nothing any more, or not yet. -/
theorem Inv.idle (h : s.Inv) (hpw : conn.passwordWait = none) (hpk : conn.pubkeyWait = none) (hn : conn.nonce = none) :
    (s.setConn c conn).Inv where
  passwords := h.passwords.drop fun c' x hx => by
    rw [passwordWait_setConn, hpw] at hx
    split at hx
    · cases hx
    · exact hx
  pubkeys := h.pubkeys.drop fun c' x hx => by
    rw [pubkeyWait_setConn, hpk] at hx
    split at hx
    · cases hx
    · exact hx
  pwDrawn := h.pwDrawn
  pkDrawn := h.pkDrawn
  sentDrawn hc := by
    rw [nonceSent_setConn, hn] at hc
    split at hc
    · cases hc
    · exact h.sentDrawn hc
  distinct hc hc' := by
    rw [nonceSent_setConn, hn] at hc hc'
    split at hc
    · cases hc
    · split at hc'
      · cases hc'
      · exact h.distinct hc hc'

theorem Inv.finished (h : s.Inv) (username : Option Text) : (s.setConn c (.finished username)).Inv := h.idle rfl rfl rfl

/-- A nonce is drawn. -/
theorem Inv.draw (h : s.Inv) (n : ν) : ({ s with drawn := n :: s.drawn } : Listener ν κ).Inv where
  passwords := h.passwords
  pubkeys := h.pubkeys
  pwDrawn he := List.mem_cons_of_mem _ (h.pwDrawn he)
  pkDrawn he := List.mem_cons_of_mem _ (h.pkDrawn he)
  sentDrawn hc := List.mem_cons_of_mem _ (h.sentDrawn hc)
  distinct := h.distinct

/-- A configuration is loaded under every challenge. -/
theorem Inv.reload (h : s.Inv) (users : List (Text × Option Text)) (publicKeys : List KeyRecord)
    (window threshold base : Option Nat) : ({ s with
      manager := s.manager.updateConfig users publicKeys window threshold base
      conns := s.conns.mapValues fun _ => Conn.reload } : Listener ν κ).Inv := by
  have hbind {β : Type} (f g : Conn ν κ → Option β) (hf : ∀ conn, f conn.reload = g conn) (c : Nat) :
      ((s.conns.mapValues fun _ => Conn.reload).get? c).bind f = (s.conns.get? c).bind g := by
    rw [Dict.get?_mapValues]
    cases s.conns.get? c with
    | none => rfl
    | some conn => exact hf conn
  have hpw (c : Nat) := hbind Conn.passwordWait
    (fun conn => conn.passwordWait.map fun x => (x.1, { x.2 with reloaded := true })) (fun conn => by cases conn <;> rfl) c
  have hpk (c : Nat) := hbind Conn.pubkeyWait
    (fun conn => conn.pubkeyWait.map fun x => (x.1, { x.2 with reloaded := true })) (fun conn => by cases conn <;> rfl) c
  have hn (c : Nat) := hbind Conn.nonce Conn.nonce (fun conn => by cases conn <;> rfl) c
  refine ⟨?_, ?_, fun he => (by cases he), fun he => (by cases he), fun hc => h.sentDrawn ((hn _).symm.trans hc),
    fun hc hc' => h.distinct ((hn _).symm.trans hc) ((hn _).symm.trans hc')⟩
  · refine h.passwords.reload.drop fun c x hx => ?_
    rw [← hx]
    unfold passwordWait
    rw [hpw]
    cases s.conns.get? c <;> rfl
  · refine h.pubkeys.reload.drop fun c x hx => ?_
    rw [← hx]
    unfold pubkeyWait
    rw [hpk]
    cases s.conns.get? c <;> rfl

theorem Inv.wait (h : s.Inv) (time : Nat) :
    ({ s with manager := { s.manager with time := s.manager.time + time } } : Listener ν κ).Inv where
  passwords := h.passwords.wait (Nat.le_add_right _ _)
  pubkeys := h.pubkeys.wait (Nat.le_add_right _ _)
  pwDrawn := h.pwDrawn
  pkDrawn := h.pkDrawn
  sentDrawn := h.sentDrawn
  distinct := h.distinct

/-- A connection that has not logged in waits at nothing. -/
theorem nonceSent_opened {address : Text} (hc : s.conns.get? c = some (.opened address)) : s.nonceSent c = none := by
  simp [nonceSent, hc, Conn.nonce]

variable {nonce : ν} {address username : Text} {keyId : Option Text}

/-- A connection gets a new nonce. -/
theorem Inv.nonces (h : s.Inv) (c : Nat) {conn : Conn ν κ} (hnonce : nonce ∉ s.drawn) (hconn : conn.nonce = some nonce) :
    (∀ {c' n}, (s.setConn c conn).nonceSent c' = some n → n ∈ nonce :: s.drawn) ∧
      ∀ {c' c'' n}, (s.setConn c conn).nonceSent c' = some n → (s.setConn c conn).nonceSent c'' = some n → c' = c'' := by
  have hcases {c' n} (hc : (s.setConn c conn).nonceSent c' = some n) : c' = c ∧ n = nonce ∨ s.nonceSent c' = some n := by
    rw [nonceSent_setConn, hconn] at hc
    split at hc
    · rename_i hcc
      cases hc
      exact .inl ⟨hcc, rfl⟩
    · exact .inr hc
  refine ⟨fun hc => ?_, fun hc hc' => ?_⟩
  · rcases hcases hc with ⟨-, rfl⟩ | hc
    · exact List.mem_cons_self
    · exact List.mem_cons_of_mem _ (h.sentDrawn hc)
  · rcases hcases hc with ⟨rfl, hn⟩ | hold <;> rcases hcases hc' with ⟨rfl, hn'⟩ | hold'
    · rfl
    · exact absurd (h.sentDrawn hold') (hn ▸ hnonce)
    · exact absurd (h.sentDrawn hold) (hn' ▸ hnonce)
    · exact h.distinct hold hold'

/-- A table with a new challenge has only nonces that were drawn. -/
theorem drawn_set {K σ : Type} [DecidableEq K] {d : Dict K (Challenge ν σ)} {drawn : List ν} {k : K} {e : Challenge ν σ}
    (hd : ∀ {k e}, d.get? k = some e → e.nonceRaw ∈ drawn) {k' : K} {e' : Challenge ν σ} (he : (d.set k e).get? k' = some e') :
    e'.nonceRaw ∈ e.nonceRaw :: drawn := by
  rw [Dict.get?_set] at he
  split at he
  · cases he
    exact List.mem_cons_self
  · exact List.mem_cons_of_mem _ (hd he)

theorem Inv.issuePassword (h : s.Inv) (hnonce : nonce ∉ s.drawn) {e : Challenge ν Text} (hn : e.nonceRaw = nonce)
    (hexpires : e.expiresAt = s.manager.time + 30 * second)
    (hapart : ∀ c' sent, s.passwordWait c' = some (username, sent) → ¬ sent.Live s.manager.time)
    (hm : s.manager.Keeps { m' with pwHmacChallenges := s.manager.pwHmacChallenges })
    (hpw : m'.pwHmacChallenges = s.manager.pwHmacChallenges.set username e) (ip : Option Text) :
    (({ s with manager := m', drawn := nonce :: s.drawn } : Listener ν κ).setConn c
      (.password username ip { challenge := e, issuedAt := s.manager.time })).Inv := by
  subst hn
  obtain ⟨htime, hpk, -⟩ := hm
  obtain ⟨hsent, hdistinct⟩ := h.nonces c hnonce
    (rfl : Conn.nonce (κ := κ) (.password username ip { challenge := e, issuedAt := s.manager.time }) = some _)
  have hlook : m'.pwHmacChallenges.get? = fun u => if u = username then some e else s.manager.pwHmacChallenges.get? u := by
    funext u
    rw [hpw, Dict.get?_set]
  refine ⟨?_, ?_, fun he => ?_, fun he => List.mem_cons_of_mem _ (h.pkDrawn (hpk ▸ he)), hsent, hdistinct⟩
  · show Tracks m'.time m'.pwHmacChallenges.get? _
    rw [htime, hlook]
    refine h.passwords.issue (c := c) hexpires (fun c' k sent hw hn => ?_) (fun k e' he hn => ?_)
      (fun c' sent _ hw => hapart c' sent hw) ?_ fun c' hcc => ?_
    · exact hnonce (hn ▸ h.sentDrawn (nonceSent_of_password hw))
    · exact hnonce (hn ▸ h.pwDrawn he)
    · exact passwordWait_setConn.trans (if_pos rfl)
    · exact passwordWait_setConn.trans (if_neg hcc)
  · show Tracks m'.time m'.pkChallenges.get? _
    rw [htime, show m'.pkChallenges = _ from hpk]
    refine h.pubkeys.drop fun c' x hx => ?_
    rw [pubkeyWait_setConn] at hx
    split at hx
    · cases hx
    · exact hx
  · exact drawn_set h.pwDrawn (hpw ▸ he)

theorem Inv.issuePubkey (h : s.Inv) (hnonce : nonce ∉ s.drawn) {id : Text} {e : Challenge ν κ} (hn : e.nonceRaw = nonce)
    (hexpires : e.expiresAt = s.manager.time + 30 * second)
    (hapart : ∀ c' sent, s.pubkeyWait c' = some ((username, id), sent) → ¬ sent.Live s.manager.time)
    (hm : s.manager.Keeps { m' with pkChallenges := s.manager.pkChallenges })
    (hpk : m'.pkChallenges = s.manager.pkChallenges.set (username, id) e) :
    (({ s with manager := m', drawn := nonce :: s.drawn } : Listener ν κ).setConn c
      (.pubkey username id { challenge := e, issuedAt := s.manager.time })).Inv := by
  subst hn
  obtain ⟨htime, -, hpw⟩ := hm
  obtain ⟨hsent, hdistinct⟩ := h.nonces c hnonce
    (rfl : Conn.nonce (.pubkey username id { challenge := e, issuedAt := s.manager.time }) = some _)
  have hlook : m'.pkChallenges.get? = fun k => if k = (username, id) then some e else s.manager.pkChallenges.get? k := by
    funext k
    rw [hpk, Dict.get?_set]
  refine ⟨?_, ?_, fun he => List.mem_cons_of_mem _ (h.pwDrawn (hpw ▸ he)), fun he => ?_, hsent, hdistinct⟩
  · show Tracks m'.time m'.pwHmacChallenges.get? _
    rw [htime, show m'.pwHmacChallenges = _ from hpw]
    refine h.passwords.drop fun c' x hx => ?_
    rw [passwordWait_setConn] at hx
    split at hx
    · cases hx
    · exact hx
  · show Tracks m'.time m'.pkChallenges.get? _
    rw [htime, hlook]
    refine h.pubkeys.issue (c := c) hexpires (fun c' k sent hw hn => ?_) (fun k e' he hn => ?_)
      (fun c' sent _ hw => hapart c' sent hw) ?_ fun c' hcc => ?_
    · exact hnonce (hn ▸ h.sentDrawn (nonceSent_of_pubkey hw))
    · exact hnonce (hn ▸ h.pkDrawn he)
    · exact pubkeyWait_setConn.trans (if_pos rfl)
    · exact pubkeyWait_setConn.trans (if_neg hcc)
  · exact drawn_set h.pkDrawn (hpk ▸ he)

theorem Inv.authHmac (h : s.Inv) (hnonce : nonce ∉ s.drawn) (hapart : ¬ s.manager.Locked username (srcIp address) →
      ∀ c' sent, s.passwordWait c' = some (username, sent) → ¬ sent.Live s.manager.time) :
    (({ s with drawn := nonce :: s.drawn } : Listener ν κ).authHmac c address username nonce).Inv := by
  have hkeeps := AuthManager.isUserLocked_keeps s.manager username (srcIp address)
  have hiff := AuthManager.isUserLocked_iff s.manager username (srcIp address)
  unfold Listener.authHmac
  dsimp only
  rcases hl : s.manager.isUserLocked username (srcIp address) with ⟨locked, m₁⟩
  rw [hl] at hkeeps hiff
  have hinv : ({ s with manager := m₁ } : Listener ν κ).Inv := h.keeps hkeeps
  have hdraw : ({ s with manager := m₁, drawn := nonce :: s.drawn } : Listener ν κ).Inv := hinv.draw nonce
  split
  · exact hdraw.finished none
  · rename_i hlocked
    have hlive := hapart fun hl => hlocked (hiff.mpr hl)
    split
    · exact hdraw.finished none
    · rename_i m₂ hm₂
      simp only [AuthManager.startPasswordHmacChallenge] at hm₂
      split at hm₂
      · cases hm₂
      · split at hm₂
        · cases hm₂
        · cases hm₂
          simp only [Dict.get?_set_self]
          refine hinv.issuePassword hnonce rfl rfl (fun c' sent hw => hkeeps.time ▸ hlive c' sent hw) ?_ ?_ _
          · exact ⟨rfl, rfl, rfl⟩
          · rfl

theorem Inv.authPubkey (h : s.Inv) (hnonce : nonce ∉ s.drawn)
    (hapart : ∀ r, s.manager.resolvePublicKeyRecord username keyId = some r → crypto.loadEd25519PublicKey r ≠ none →
      ∀ c' sent, s.pubkeyWait c' = some ((username, AuthManager.effectiveKeyId r), sent) → ¬ sent.Live s.manager.time) :
    (({ s with drawn := nonce :: s.drawn } : Listener ν κ).authPubkey crypto c username keyId nonce).Inv := by
  have hdraw : ({ s with drawn := nonce :: s.drawn } : Listener ν κ).Inv := h.draw nonce
  unfold Listener.authPubkey
  split
  · exact hdraw.finished none
  · rename_i id m' hstart
    simp only [AuthManager.startPubkeyChallenge] at hstart
    split at hstart
    · cases hstart
    · rename_i r hr
      split at hstart
      · cases hstart
      · rename_i pub hpub
        cases hstart
        simp only [Dict.get?_set_self]
        refine h.issuePubkey hnonce rfl rfl (hapart r hr (by simp [hpub])) ?_ ?_
        · exact ⟨rfl, rfl, rfl⟩
        · rfl

/-! ## Answers -/

/-- The tables change so that they still hold what is waited at. -/
theorem Inv.tables (h : s.Inv) (hpw : Tracks m'.time m'.pwHmacChallenges.get? s.passwordWait)
    (hpk : Tracks m'.time m'.pkChallenges.get? s.pubkeyWait)
    (hpwSub : ∀ u e, m'.pwHmacChallenges.get? u = some e → s.manager.pwHmacChallenges.get? u = some e)
    (hpkSub : ∀ k e, m'.pkChallenges.get? k = some e → s.manager.pkChallenges.get? k = some e) (accepted : List (Nat × ν)) :
    ({ s with manager := m', accepted := accepted } : Listener ν κ).Inv :=
  ⟨hpw, hpk, fun he => h.pwDrawn (hpwSub _ _ he), fun he => h.pkDrawn (hpkSub _ _ he), h.sentDrawn, h.distinct⟩

theorem Inv.accept (h : s.Inv) (accepted : List (Nat × ν)) : ({ s with accepted := accepted } : Listener ν κ).Inv :=
  ⟨h.passwords, h.pubkeys, h.pwDrawn, h.pkDrawn, h.sentDrawn, h.distinct⟩

/-- The end of a login. -/
theorem finish_eq {σ : Type} (s : Listener ν κ) (c : Nat) (username : Text) (ok : Bool) (consumed : Option (Challenge ν σ)) :
    ∃ accepted, s.finish c username ok consumed =
        { s.setConn c (.finished (if ok then some username else none)) with accepted := accepted } ∧
      accepted = if ok then s.accepted ++ (consumed.map fun e => (c, e.nonceRaw)).toList else s.accepted := by
  cases ok <;> exact ⟨_, rfl, rfl⟩

theorem loggedIn_setConn {o : Option Text} (accepted : List (Nat × ν)) :
    ({ s.setConn c (.finished o) with accepted := accepted } : Listener ν κ).LoggedIn c ↔ o.isSome := by
  unfold LoggedIn
  simp only [setConn, Dict.get?_set_self, Option.some.injEq, Conn.finished.injEq]
  exact Option.isSome_iff_exists.symm

/-- The answer of an accepted login passed the challenge that was sent on its connection. -/
theorem answered_finish {σ : Type} {ok : Bool} {consumed : Option (Challenge ν σ)} {line : Text}
    (hok : ok = true ↔ s.Correct crypto c line ∧ ¬ s.LockedOut c)
    (hconsumed : ok = true → ∃ n, s.nonceSent c = some n ∧ consumed.map Challenge.nonceRaw = some n) :
    s.Answered crypto c line (({ s with manager := m' } : Listener ν κ).finish c username ok consumed) := by
  obtain ⟨accepted, hfinish, hacc⟩ := finish_eq ({ s with manager := m' } : Listener ν κ) c username ok consumed
  rw [hfinish]
  cases ok with
  | true =>
      obtain ⟨n, hn, hc⟩ := hconsumed rfl
      obtain ⟨e, rfl, rfl⟩ := Option.map_eq_some_iff.mp hc
      refine ⟨(loggedIn_setConn accepted).trans (by simpa using hok), fun _ => ⟨_, hn, hacc⟩, fun h => absurd ((loggedIn_setConn accepted).mpr rfl) h⟩
  | false =>
      refine ⟨(loggedIn_setConn accepted).trans (by simpa using hok), fun h => ?_, fun _ => hacc⟩
      cases (loggedIn_setConn accepted).mp h

variable {ip : Option Text} {line : Text}

theorem Inv.answerHmac {sent : Sent ν Text} (h : s.Inv) (hc : s.conns.get? c = some (.password username ip sent))
    (hapart : s.AnswerApart crypto c line) : (s.answerHmac crypto c username ip line).Inv ∧
      s.Answered crypto c line (s.answerHmac crypto c username ip line) := by
  have hwait : s.passwordWait c = some (username, sent) := by simp [passwordWait, hc, Conn.passwordWait]
  have hnonce := nonceSent_of_password hwait
  have hlocked : s.LockedOut c ↔ s.manager.Locked username ip := by simp [LockedOut, hc]
  simp only [AnswerApart, hc] at hapart
  unfold Listener.answerHmac
  cases ha : hmacAnswer line with
  | none =>
      have hcorrect : ¬ s.Correct crypto c line := by simp [Correct, hc, ha]
      have hlogin : ¬ (s.setConn c (.finished none)).LoggedIn c := fun hl => by
        cases (loggedIn_setConn s.accepted).mp hl
      exact ⟨h.finished none, ⟨iff_of_false hlogin fun hn => hcorrect hn.1, fun hl => absurd hl hlogin, fun _ => rfl⟩⟩
  | some hmac =>
      dsimp only
      have hcorrect : s.Correct crypto c line ↔ crypto.hmacMatches sent.challenge.secret sent.challenge.nonceRaw hmac = true ∧
          s.manager.time ≤ sent.issuedAt + 30 * second ∧ sent.reloaded = false := by simp [Correct, hc, ha]
      by_cases hl : s.manager.Locked username ip
      · obtain ⟨hok, hkeeps⟩ := AuthManager.verifyPasswordHmac_locked crypto hmac hl
        rw [hok]
        refine ⟨?_, answered_finish (iff_of_false (by simp) fun hn => hn.2 (hlocked.mpr hl)) fun hn => by cases hn⟩
        obtain ⟨accepted, hfinish, -⟩ := finish_eq ({ s with
          manager := (s.manager.verifyPasswordHmac crypto username hmac ip).2 } : Listener ν κ) c username false
          (s.manager.pwHmacChallenges.get? username)
        rw [hfinish]
        exact ((h.finished none).keeps hkeeps).accept accepted
      · have hspends := AuthManager.verifyPasswordHmac_spends crypto hmac hl
        rcases hv : s.manager.verifyPasswordHmac crypto username hmac ip with ⟨ok, m'⟩
        rw [hv] at hspends
        obtain ⟨htime, hpk, hpw, hpasses⟩ := hspends
        simp only at htime hpk hpw hpasses
        have hapart' := hapart hl hmac ha
        have hanswer := h.passwords.answer (fun sec n => crypto.hmacMatches sec n hmac) username hwait
          fun e he hle hn => (hapart' e he hle hn).1
        have hok : ok = true ↔ s.Correct crypto c line ∧ ¬ s.LockedOut c := by
          rw [show ok = true ↔ _ from hpasses, hanswer, hcorrect, hlocked]
          simp [hl]
        refine ⟨?_, answered_finish hok fun ht => ⟨_, hnonce, ?_⟩⟩
        · obtain ⟨accepted, hfinish, -⟩ := finish_eq ({ s with manager := m' } : Listener ν κ) c username ok
            (s.manager.pwHmacChallenges.get? username)
          rw [hfinish]
          have hfin := h.finished (c := c) (if ok then some username else none)
          refine hfin.tables ?_ ?_ (fun u e he => ?_) (fun k e he => ?_) accepted
          · show Tracks m'.time m'.pwHmacChallenges.get? _
            rw [htime, hpw]
            refine hfin.passwords.pop fun c' sent' hw => ?_
            rw [passwordWait_setConn] at hw
            split at hw
            · cases hw
            · rename_i hcc
              exact h.passwords.not_live hwait hw hcc fun e he hle hn hn' =>
                (hapart' e he hle hn).2 c' (hn' ▸ nonceSent_of_password hw)
          · show Tracks m'.time m'.pkChallenges.get? _
            rw [htime, hpk]
            exact hfin.pubkeys
          · have he : (if u = username then none else s.manager.pwHmacChallenges.get? u) = some e := (congrFun hpw u).symm.trans he
            split at he
            · cases he
            · exact he
          · exact hpk ▸ he
        · obtain ⟨e, he, hle, hmatch⟩ := hpasses.mp ht
          by_cases hn : e.nonceRaw = sent.challenge.nonceRaw
          · rw [he, ← hn]
            rfl
          · rw [(hapart' e he hle hn).1] at hmatch
            cases hmatch

theorem Inv.answerPubkey {keyId : Text} {sent : Sent ν κ} (h : s.Inv) (hc : s.conns.get? c = some (.pubkey username keyId sent))
    (hapart : s.AnswerApart crypto c line) : (s.answerPubkey crypto c username line).Inv ∧
      s.Answered crypto c line (s.answerPubkey crypto c username line) := by
  have hwait : s.pubkeyWait c = some ((username, keyId), sent) := by simp [pubkeyWait, hc, Conn.pubkeyWait]
  have hnonce := nonceSent_of_pubkey hwait
  have hlocked : ¬ s.LockedOut c := by simp [LockedOut, hc]
  simp only [AnswerApart, hc] at hapart
  unfold Listener.answerPubkey
  cases ha : pkAnswer line with
  | none =>
      have hcorrect : ¬ s.Correct crypto c line := by simp [Correct, hc, ha]
      have hlogin : ¬ (s.setConn c (.finished none)).LoggedIn c := fun hl => by
        cases (loggedIn_setConn s.accepted).mp hl
      exact ⟨h.finished none, ⟨iff_of_false hlogin fun hn => hcorrect hn.1, fun hl => absurd hl hlogin, fun _ => rfl⟩⟩
  | some answer =>
      obtain ⟨id, signature⟩ := answer
      dsimp only
      have hcorrect : s.Correct crypto c line ↔ id = keyId ∧
          crypto.verify sent.challenge.secret sent.challenge.nonceRaw signature = true ∧
          s.manager.time ≤ sent.issuedAt + 30 * second ∧ sent.reloaded = false := by
        simp only [Correct, hc, ha, Option.some.injEq, Prod.mk.injEq]
        constructor
        · rintro ⟨⟨_, ⟨rfl, rfl⟩, hv⟩, hrest⟩
          exact ⟨rfl, hv, hrest⟩
        · rintro ⟨rfl, hv, hrest⟩
          exact ⟨⟨_, ⟨rfl, rfl⟩, hv⟩, hrest⟩
      have hverifies := AuthManager.verifyPubkeyResponse_verifies crypto s.manager username id signature
      rcases hv : s.manager.verifyPubkeyResponse crypto username id signature with ⟨ok, m'⟩
      rw [hv] at hverifies
      obtain ⟨htime, hpw, hpk, hpasses⟩ := hverifies
      simp only at htime hpw hpk hpasses
      have hapart' := hapart id signature ha
      have hanswer := h.pubkeys.answer (fun key n => crypto.verify key n signature) (username, id) hwait hapart'
      have hok : ok = true ↔ s.Correct crypto c line ∧ ¬ s.LockedOut c := by
        rw [show ok = true ↔ _ from hpasses, hanswer, hcorrect]
        simp [hlocked]
      refine ⟨?_, answered_finish hok fun ht => ⟨_, hnonce, ?_⟩⟩
      · obtain ⟨accepted, hfinish, -⟩ := finish_eq ({ s with manager := m' } : Listener ν κ) c username ok
          (s.manager.pkChallenges.get? (username, id))
        rw [hfinish]
        have hfin := h.finished (c := c) (if ok then some username else none)
        refine hfin.tables ?_ ?_ (fun u e he => ?_) (fun k e he => ?_) accepted
        · show Tracks m'.time m'.pwHmacChallenges.get? _
          rw [htime, hpw]
          exact hfin.passwords
        · show Tracks m'.time m'.pkChallenges.get? _
          rw [htime]
          rcases hpk with ⟨hpk, -⟩ | ⟨e, he, hgone, hpk⟩
          · rw [hpk]
            exact hfin.pubkeys
          · have hlook : m'.pkChallenges.get? = fun k => if k = (username, id) then none else s.manager.pkChallenges.get? k := by
              funext k
              rw [hpk, Dict.get?_pop]
            rw [hlook]
            -- Who waits at the challenge that goes waits too late, or is the connection that has answered it.
            refine hfin.pubkeys.pop fun c' sent' hw hl => ?_
            rw [pubkeyWait_setConn] at hw
            split at hw
            · cases hw
            · rename_i hcc
              have hlive := h.pubkeys.live hw hl
              rw [he] at hlive
              cases hlive
              rcases hgone with hexpired | ht
              · exact absurd hl.1 (Nat.not_le.mpr hexpired)
              · obtain ⟨e, he', hle, hverify⟩ := hpasses.mp ht
                rw [he] at he'
                cases he'
                by_cases hn : sent'.challenge.nonceRaw = sent.challenge.nonceRaw
                · exact hcc (h.pubkeys.distinct hw hwait hn)
                · rw [hapart' _ he hle hn] at hverify
                  cases hverify
        · exact hpw ▸ he
        · rcases hpk with ⟨hpk, -⟩ | ⟨_, _, _, hpk⟩
          · exact hpk ▸ he
          · exact Dict.get?_of_get?_pop (hpk ▸ he)
      · obtain ⟨e, he, hle, hverify⟩ := hpasses.mp ht
        by_cases hn : e.nonceRaw = sent.challenge.nonceRaw
        · rw [he, ← hn]
          rfl
        · rw [hapart' e he hle hn] at hverify
          cases hverify

/-! ## Accepted nonces -/

/-- No accepted nonce is out any more, and none was accepted twice. -/
structure Spent (s : Listener ν κ) : Prop where
  drawn : ∀ p ∈ s.accepted, p.2 ∈ s.drawn
  gone : ∀ p ∈ s.accepted, ∀ c, s.nonceSent c ≠ some p.2
  nodup : (s.accepted.map Prod.snd).Nodup

/-- Nothing is accepted, and only new nonces are sent. -/
theorem Spent.of (h : s.Spent) (hacc : s'.accepted = s.accepted) (hdrawn : s.drawn ⊆ s'.drawn)
    (hsent : ∀ c n, s'.nonceSent c = some n → s.nonceSent c = some n ∨ n ∉ s.drawn) : s'.Spent where
  drawn p hp := hdrawn (h.drawn p (hacc ▸ hp))
  gone p hp c hc := by
    rw [hacc] at hp
    rcases hsent c p.2 hc with hc | hn
    · exact h.gone p hp c hc
    · exact hn (h.drawn p hp)
  nodup := hacc ▸ h.nodup

theorem nonceSent_of_finished {o : Option Text} {n : ν} (hc : (s.setConn c (.finished o)).nonceSent c' = some n) :
    c' ≠ c ∧ s.nonceSent c' = some n := by
  rw [nonceSent_setConn] at hc
  split at hc
  · cases hc
  · exact ⟨‹_›, hc⟩

theorem Spent.finished (h : s.Spent) (o : Option Text) : (s.setConn c (.finished o)).Spent :=
  h.of rfl (List.Subset.refl _) fun _ _ hn => .inl (nonceSent_of_finished hn).2

/-- An answer is accepted by a nonce that only its connection waits with. -/
theorem Spent.answered {line : Text} (h : s.Spent) (hinv : s.Inv) (hanswered : s.Answered crypto c line s')
    (hdrawn : s'.drawn = s.drawn) (hsent : ∀ c' n, s'.nonceSent c' = some n → c' ≠ c ∧ s.nonceSent c' = some n) : s'.Spent := by
  by_cases hlogin : s'.LoggedIn c
  · obtain ⟨n, hn, hacc⟩ := hanswered.accepted hlogin
    have hnew : n ∉ s.accepted.map Prod.snd := by
      intro hm
      obtain ⟨p, hp, hpn⟩ := List.mem_map.mp hm
      exact h.gone p hp c (hpn ▸ hn)
    refine ⟨fun p hp => ?_, fun p hp c' hc' => ?_, ?_⟩
    · rw [hacc] at hp
      rw [hdrawn]
      rcases List.mem_append.mp hp with hp | hp
      · exact h.drawn p hp
      · cases List.mem_singleton.mp hp
        exact hinv.sentDrawn hn
    · obtain ⟨hne, hold⟩ := hsent c' p.2 hc'
      rw [hacc] at hp
      rcases List.mem_append.mp hp with hp | hp
      · exact h.gone p hp c' hold
      · cases List.mem_singleton.mp hp
        exact hne (hinv.distinct hold hn)
    · rw [hacc, List.map_append]
      exact List.nodup_append.mpr ⟨h.nodup, by simp, fun x hx y hy => by
        rintro rfl
        cases List.mem_singleton.mp hy
        exact hnew hx⟩
  · exact h.of (hanswered.rejected hlogin) (hdrawn ▸ List.Subset.refl _) fun c' n hc' => .inl (hsent c' n hc').2

/-- An answer ends the wait of its connection. -/
theorem sent_finish {σ : Type} {ok : Bool} {consumed : Option (Challenge ν σ)} :
    (({ s with manager := m' } : Listener ν κ).finish c username ok consumed).drawn = s.drawn ∧
      ∀ c' n, (({ s with manager := m' } : Listener ν κ).finish c username ok consumed).nonceSent c' = some n →
        c' ≠ c ∧ s.nonceSent c' = some n := by
  obtain ⟨accepted, hfinish, -⟩ := finish_eq ({ s with manager := m' } : Listener ν κ) c username ok consumed
  rw [hfinish]
  exact ⟨rfl, fun c' n hc' => nonceSent_of_finished hc'⟩

/-- A login line sends no other nonce than the one that is drawn. -/
theorem Spent.sent (h : s.Spent) (hnonce : nonce ∉ s.drawn) (hconn : conn.nonce = none ∨ conn.nonce = some nonce) :
    (({ s with manager := m', drawn := nonce :: s.drawn } : Listener ν κ).setConn c conn).Spent := by
  refine h.of rfl (List.subset_cons_self _ _) fun c' n hn => ?_
  rw [nonceSent_setConn] at hn
  split at hn
  · rcases hconn with hconn | hconn <;> rw [hconn] at hn <;> cases hn
    exact .inr hnonce
  · exact .inl hn

theorem Spent.authHmac (h : s.Spent) (hnonce : nonce ∉ s.drawn) :
    (({ s with drawn := nonce :: s.drawn } : Listener ν κ).authHmac c address username nonce).Spent := by
  unfold Listener.authHmac
  dsimp only
  split
  · exact h.sent hnonce (.inl rfl)
  · split
    · exact h.sent hnonce (.inl rfl)
    · rename_i m₂ hm₂
      simp only [AuthManager.startPasswordHmacChallenge] at hm₂
      split at hm₂
      · cases hm₂
      · split at hm₂
        · cases hm₂
        · cases hm₂
          simp only [Dict.get?_set_self]
          exact h.sent hnonce (.inr rfl)

theorem Spent.authPubkey (h : s.Spent) (hnonce : nonce ∉ s.drawn) :
    (({ s with drawn := nonce :: s.drawn } : Listener ν κ).authPubkey crypto c username keyId nonce).Spent := by
  unfold Listener.authPubkey
  split
  · exact h.sent hnonce (.inl rfl)
  · rename_i id m' hstart
    simp only [AuthManager.startPubkeyChallenge] at hstart
    split at hstart
    · cases hstart
    · split at hstart
      · cases hstart
      · cases hstart
        simp only [Dict.get?_set_self]
        exact h.sent hnonce (.inr rfl)

/-! ## Steps of other connections -/

/-- A connection and the clock stay as they are. -/
def Undisturbed (c : Nat) (s s' : Listener ν κ) : Prop := s'.conns.get? c = s.conns.get? c ∧ s'.manager.time = s.manager.time

theorem undisturbed_setConn {drawn : List ν} {accepted : List (Nat × ν)} (hne : c ≠ c') (hm : m'.time = s.manager.time) :
    s.Undisturbed c (({ s with manager := m', drawn := drawn, accepted := accepted } : Listener ν κ).setConn c' conn) :=
  ⟨Dict.get?_set_ne _ _ hne, hm⟩

theorem undisturbed_finish {σ : Type} {ok : Bool} {consumed : Option (Challenge ν σ)} (hne : c ≠ c')
    (hm : m'.time = s.manager.time) :
    s.Undisturbed c (({ s with manager := m' } : Listener ν κ).finish c' username ok consumed) := by
  unfold finish
  split <;> exact undisturbed_setConn hne hm

theorem Undisturbed.correct {line : Text} (h : s.Undisturbed c s') : s'.Correct crypto c line ↔ s.Correct crypto c line := by
  unfold Correct
  rw [h.1, h.2]

/-! ## Runs -/

theorem inv_start (time : Nat) (users : List (Text × Option Text)) (publicKeys : List KeyRecord)
    (window threshold base : Option Nat) : (start time users publicKeys window threshold base : Listener ν κ).Inv ∧
      (start time users publicKeys window threshold base : Listener ν κ).Spent := by
  refine ⟨⟨⟨?_, ?_, ?_, ?_⟩, ⟨?_, ?_, ?_, ?_⟩, ?_, ?_, ?_, ?_⟩, ⟨?_, ?_, ?_⟩⟩ <;>
    simp [start, passwordWait, pubkeyWait, nonceSent, AuthManager.applySecurityPolicy]


variable [DecidableEq ν]

/-- An answer that keeps apart leads to what is due. -/
theorem answer_step {line : Text} (h : s.Inv) (hapart : s.AnswerApart crypto c line)
    (hstep : s.step crypto (.answer c line) = some s') : s'.Inv ∧ s.Answered crypto c line s' ∧ s'.drawn = s.drawn ∧
      ∀ c' n, s'.nonceSent c' = some n → c' ≠ c ∧ s.nonceSent c' = some n := by
  simp only [step] at hstep
  split at hstep
  · rename_i username keyId sent hc
    cases hstep
    obtain ⟨hinv, hanswered⟩ := h.answerPubkey hc hapart
    refine ⟨hinv, hanswered, ?_⟩
    unfold Listener.answerPubkey
    split
    · exact ⟨rfl, fun c' n hc' => nonceSent_of_finished hc'⟩
    · exact sent_finish
  · rename_i username ip sent hc
    cases hstep
    obtain ⟨hinv, hanswered⟩ := h.answerHmac hc hapart
    refine ⟨hinv, hanswered, ?_⟩
    unfold Listener.answerHmac
    split
    · exact ⟨rfl, fun c' n hc' => nonceSent_of_finished hc'⟩
    · exact sent_finish
  · cases hstep

theorem step_keeps (a : Act ν) (h : s.Inv ∧ s.Spent) (hapart : s.Apart crypto a) (hstep : s.step crypto a = some s') :
    s'.Inv ∧ s'.Spent := by
  obtain ⟨hinv, hspent⟩ := h
  have hmanager {m' : AuthManager ν κ} (hkeeps : s.manager.Keeps m') :
      ({ s with manager := m' } : Listener ν κ).Inv ∧ ({ s with manager := m' } : Listener ν κ).Spent :=
    ⟨hinv.keeps hkeeps, hspent.of rfl (List.Subset.refl _) fun _ _ hn => .inl hn⟩
  cases a with
  | connect c address =>
      simp only [step] at hstep
      split at hstep
      · cases hstep
        refine ⟨hinv.idle rfl rfl rfl, hspent.of rfl (List.Subset.refl _) fun c' n hn => .inl ?_⟩
        rw [nonceSent_setConn] at hn
        split at hn
        · cases hn
        · exact hn
      · cases hstep
  | login c line nonce =>
      simp only [step] at hstep
      split at hstep
      · rename_i address hc
        split at hstep
        · cases hstep
        · rename_i hnonce
          simp only [Apart, LoginApart] at hapart
          split at hstep
          · rename_i username keyId hline
            cases hstep
            rw [hline] at hapart
            exact ⟨hinv.authPubkey hnonce hapart, hspent.authPubkey hnonce⟩
          · rename_i username hline
            cases hstep
            rw [hline] at hapart
            refine ⟨hinv.authHmac hnonce fun hl => hapart fun address' hc' => ?_, hspent.authHmac hnonce⟩
            rw [hc] at hc'
            cases hc'
            exact hl
          · cases hstep
            exact ⟨(hinv.draw nonce).finished none, hspent.sent hnonce (.inl rfl)⟩
      · cases hstep
  | answer c line =>
      obtain ⟨hinv', hanswered, hdrawn, hsent⟩ := answer_step hinv hapart hstep
      exact ⟨hinv', hspent.answered hinv hanswered hdrawn hsent⟩
  | leave c =>
      simp only [step] at hstep
      split at hstep
      · cases hstep
      · cases hstep
      · cases hstep
        exact ⟨hinv.finished none, hspent.finished none⟩
  | wait time =>
      cases hstep
      exact ⟨hinv.wait time, hspent.of rfl (List.Subset.refl _) fun _ _ hn => .inl hn⟩
  | updateConfig users publicKeys window threshold base =>
      cases hstep
      refine ⟨hinv.reload .., hspent.of rfl (List.Subset.refl _) fun c n hn => .inl ?_⟩
      unfold nonceSent at hn ⊢
      dsimp only at hn
      rw [Dict.get?_mapValues] at hn
      cases hc : s.conns.get? c with
      | none =>
          rw [hc] at hn
          cases hn
      | some conn =>
          rw [hc] at hn
          cases conn <;> exact hn
  | updateSecurityPolicy window threshold base =>
      cases hstep
      exact hmanager (AuthManager.applySecurityPolicy_keeps _ _ _ _)
  | askLocked username ip =>
      cases hstep
      exact hmanager (AuthManager.isUserLocked_keeps _ _ _)
  | failure username ip =>
      cases hstep
      exact hmanager (AuthManager.registerAuthFailure_keeps _ _ _)
  | success username ip =>
      cases hstep
      exact hmanager (AuthManager.clearAuthFailures_keeps _ _ _)

/-- A step of another connection leaves a connection and the clock as they are. -/
theorem step_other {a : Act ν} (hc' : a.conn = some c') (hne : c ≠ c') (hstep : s.step crypto a = some s') :
    s.Undisturbed c s' := by
  cases a with
  | connect c₁ address =>
      cases hc'
      simp only [step] at hstep
      split at hstep <;> cases hstep
      exact undisturbed_setConn hne rfl
  | login c₁ line nonce =>
      cases hc'
      simp only [step] at hstep
      split at hstep
      · split at hstep
        · cases hstep
        · split at hstep <;> cases hstep
          · unfold Listener.authPubkey
            split
            · exact undisturbed_setConn hne rfl
            · rename_i hstart
              simp only [AuthManager.startPubkeyChallenge] at hstart
              split at hstart
              · cases hstart
              · split at hstart <;> cases hstart
                simp only [Dict.get?_set_self]
                exact undisturbed_setConn hne rfl
          · unfold Listener.authHmac
            have htime (u : Text) (ip : Option Text) : (s.manager.isUserLocked u ip).2.time = s.manager.time :=
              (AuthManager.isUserLocked_keeps s.manager u ip).time
            dsimp only
            split
            · exact undisturbed_setConn hne (htime _ _)
            · split
              · exact undisturbed_setConn hne (htime _ _)
              · rename_i hstart
                simp only [AuthManager.startPasswordHmacChallenge] at hstart
                split at hstart
                · cases hstart
                · split at hstart <;> cases hstart
                  simp only [Dict.get?_set_self]
                  exact undisturbed_setConn hne (htime _ _)
          · exact undisturbed_setConn hne rfl
      · cases hstep
  | answer c₁ line =>
      cases hc'
      simp only [step] at hstep
      split at hstep <;> cases hstep
      · unfold Listener.answerPubkey
        split
        · exact undisturbed_setConn hne rfl
        · exact undisturbed_finish hne (AuthManager.verifyPubkeyResponse_verifies ..).time
      · rename_i username ip sent hc
        unfold Listener.answerHmac
        split
        · exact undisturbed_setConn hne rfl
        · rename_i hmac _
          refine undisturbed_finish hne ?_
          by_cases hl : s.manager.Locked username ip
          · exact (AuthManager.verifyPasswordHmac_locked crypto hmac hl).2.time
          · exact (AuthManager.verifyPasswordHmac_spends crypto hmac hl).time
  | leave c₁ =>
      cases hc'
      simp only [step] at hstep
      split at hstep <;> cases hstep
      exact undisturbed_setConn hne rfl
  | wait | updateConfig | updateSecurityPolicy | askLocked | failure | success => cases hc'

end Listener

end OpenMux.Login
